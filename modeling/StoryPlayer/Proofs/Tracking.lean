import Mathlib.Algebra.Ring.Nat
import StoryPlayer.Proofs.Agree
import StoryPlayer.Proofs.Choosing
import StoryPlayer.Proofs.Telling

/-!
# Frames and tellings

A stack of frames stands for the rest of a telling: the nodes that are left in the innermost group,
then those that are left in the group around it, and so on.

- `Level` is what is left of one group, `tellBelow` tells what is left of all of them,
- `Frames.Tracked` says that frames stand for levels,
- `Spent` says how much fuel steps take away,
- `Unwound` says where a loop that is left or repeated goes on, in the stack and in the telling.
-/

namespace StoryPlayer

variable {story : Story} {p q r : Player}

/-! ## Walks -/

namespace Walk

variable {w w' : World} {group : String} {inner : Walk Flow} {flow : Flow} {log : List Event}

theorem within_ok (h : inner (w.addBlock group) = .ok (flow, w')) :
    within group inner w = .ok (flow, w'.dropBlock) := by
  change (inner >>= fun flow => (modify fun w => w.dropBlock) >>= fun _ => pure flow)
    (w.addBlock group) = _
  rw [ok_bind h]
  rfl

theorem within_error (h : inner (w.addBlock group) = .error log) :
    within group inner w = .error log := by
  change (inner >>= fun flow => (modify fun w => w.dropBlock) >>= fun _ => pure flow)
    (w.addBlock group) = _
  exact error_bind h

end Walk

/-! ## Formulas -/

/-- The states have the same variables, and the same has been used in them. -/
structure Player.Mirrors (p q : Player) : Prop where
  blocks : p.frames.map Frame.block = q.frames.map Frame.block
  once : p.once = q.once
  generator : p.generator = q.generator

theorem map_frame_block {fs gs : List Frame} :
    (fs.map fun f => f.block.frame) = (gs.map fun f => f.block.frame) ↔
      fs.map Frame.block = gs.map Frame.block := by
  have hframe : ∀ fs : List Frame,
      (fs.map fun f => f.block.frame) = (fs.map Frame.block).map Block.frame := by simp
  have hblock : ∀ fs : List Frame,
      ((fs.map fun f => f.block.frame).map Frame.block) = fs.map Frame.block := by
    intro fs
    simp only [List.map_map]
    rfl
  constructor
  · intro h
    rw [← hblock fs, h, hblock]
  · intro h
    rw [hframe, h, ← hframe]

/-- Formulas see the variables of groups, and nothing else of frames. -/
theorem similarity_mirrors : Similarity (fun f => f.block.frame) Player.Mirrors where
  shows := ⟨fun _ => rfl, fun _ => rfl, fun _ => rfl, fun _ _ _ => rfl⟩
  frames h := map_frame_block.2 h.blocks
  once h := h.once
  generator h := h.generator
  evaluated h hframes := ⟨map_frame_block.1 hframes, h.once, rfl⟩

/-- The action sees the variables of groups, and nothing else of frames. -/
abbrev Act.Blind {α : Type} (act : Act α) : Prop :=
  Act.Agrees Player.Mirrors Eq act act

/-- A state and its world have the same variables. -/
theorem mirrors_world (p : Player) (picks : List Nat) (log : List Event) :
    p.Mirrors (p.world picks log).player := by
  refine ⟨?_, rfl, rfl⟩
  simp only [Player.world, World.player, List.map_map]
  rfl

section Compute

variable {α : Type} {act : Act α} {picks : List Nat} {log : List Event}

/-- A blind action does the same in the world of a state as in the state itself. -/
theorem compute_ok {x : α} (hact : act.Blind) (h : act p = .ok (x, r)) :
    Walk.compute act (p.world picks log) = .ok (x, r.world picks log) := by
  have hagree := hact p _ (mirrors_world p picks log)
  rw [h] at hagree
  unfold Walk.compute
  generalize act (p.world picks log).player = result at hagree
  cases hagree with
  | ok hxy hrs =>
      subst hxy
      simp only [Player.world, hrs.blocks, hrs.once, hrs.generator]

/-- If it fails, the telling stops with its fault. -/
theorem compute_error {failure : Failure} (hact : act.Blind) (h : act p = .error failure) :
    Walk.compute act (p.world picks log) = .error (log ++ failure.fault.told) := by
  have hagree := hact p _ (mirrors_world p picks log)
  rw [h] at hagree
  unfold Walk.compute
  generalize act (p.world picks log).player = result at hagree
  cases hagree with
  | error fault => rfl

end Compute

section Blind

variable (story : Story)

theorem blind_execute (source : String) : (Act.execute story source).Blind :=
  @Similarity.execute _ _ story story.seed similarity_mirrors source

theorem blind_condition (source : String) : (Act.condition story source).Blind :=
  @Similarity.condition _ _ story story.seed similarity_mirrors source

theorem blind_render (text : String) : (Act.render story text).Blind :=
  @Similarity.render _ _ story story.seed similarity_mirrors text

theorem blind_renderOptional (text : Option String) : (Act.renderOptional story text).Blind :=
  @Similarity.renderOptional _ _ story story.seed similarity_mirrors text

/-- Whether an option may be offered depends on variables and on what has been used. -/
theorem blind_offered (script : String) (options : List ChoiceOption) :
    (Act.offered story script options).Blind :=
  @Similarity.offered _ _ story story.seed similarity_mirrors script options

theorem blind_renderOptions (index : Nat) (options : List ChoiceOption) :
    (Act.renderOptions story index options).Blind :=
  @Similarity.renderOptions _ _ story story.seed similarity_mirrors index options

theorem blind_declare (d : Declaration) : (Act.declare story d).Blind :=
  @Similarity.declare _ _ story story.seed similarity_mirrors d

end Blind

/-! ## Places -/

structure Place where
  group : String
  index : Nat
  /-- The group is the body of a loop. -/
  body : Bool

def Place.past (place : Place) : Place :=
  { place with index := place.index + 1 }

def Frame.place (f : Frame) : Place :=
  ⟨f.group, f.node, decide (f.completion = .whileBody)⟩

/-- Where a group goes on when the group above it, which may be the body of a loop, has come to an
end.  Only a loop goes on after it was left or repeated. -/
def Place.resumed (place : Place) (body : Bool) : Flow → Option Nat
  | .onward => some place.index
  | .leave => if body then some (place.index + 1) else none
  | .again => if body then some place.index else none

/-- A place and the fuel that is left for telling what comes after it. -/
abbrev Level := Place × Nat

def tellFrom (story : Story) (fuel : Nat) (group : String) (index : Nat) : Walk Flow := do
  let (script, found) ← Walk.ofExcept (story.group group)
  tellNodes story fuel script group index (found.nodes.drop index)

/-- Tells what is left when the group above, which may be the body of a loop, has come to an end. -/
def tellBelow (story : Story) : Bool → List Level → Flow → World → List Event
  | _, [], flow, w => w.log ++ flow.told
  | body, (place, fuel) :: levels, flow, w =>
    match place.resumed body flow with
    | none => tellBelow story place.body levels flow w.dropBlock
    | some index =>
      match tellFrom story fuel place.group index w with
      | .error log => log
      | .ok (flow, w) => tellBelow story place.body levels flow w.dropBlock

def proceed (story : Story) (body : Bool) (levels : List Level) :
    Except (List Event) (Flow × World) → List Event
  | .error log => log
  | .ok (flow, w) => tellBelow story body levels flow w.dropBlock

def Player.rest (story : Story) (p : Player) (levels : List Level) (picks : List Nat)
    (log : List Event) : List Event :=
  tellBelow story false levels .onward (p.world picks log)

section Places

variable {place : Place} {fuel : Nat} {levels : List Level} {body : Bool} {w : World}
  {found entered : String × Group} {group : String}

/-- A group is told from an index on by its later nodes. -/
theorem tellFrom_eq (hgroup : story.group group = .ok found) (index : Nat) :
    tellFrom story fuel group index =
      tellNodes story fuel found.1 group index (found.2.nodes.drop index) := by
  unfold tellFrom
  rw [hgroup]
  rfl

/-- The innermost group goes on wherever it stands. -/
theorem tellBelow_onward (place : Place) (hgroup : story.group place.group = .ok found) :
    tellBelow story body ((place, fuel) :: levels) .onward w =
      proceed story place.body levels (tellNodes story fuel found.1 place.group place.index
        (found.2.nodes.drop place.index) w) := by
  rw [← tellFrom_eq hgroup]
  rfl

theorem tellGroup_eq {tell : String → String → Nat → List Node → Walk Flow}
    (hgroup : story.group group = .ok found) :
    tellGroup story tell group = Walk.within group (tell found.1 group 0 found.2.nodes) := by
  unfold tellGroup
  rw [hgroup]
  rfl

/-- A group that is entered has a place of its own; what comes after it is left below. -/
theorem proceed_tellGroup {after : Flow → Walk Flow} {looping : Bool} {below : List Level}
    (hgroup : story.group group = .ok found)
    (hafter : ∀ flow w, proceed story body levels (after flow w) =
      tellBelow story looping below flow w) :
    proceed story body levels ((tellGroup story (tellNodes story fuel) group >>= after) w) =
      tellBelow story false ((⟨group, 0, looping⟩, fuel) :: below) .onward (w.addBlock group) := by
  rw [tellBelow_onward ⟨group, 0, looping⟩ hgroup, List.drop_zero, tellGroup_eq hgroup]
  cases h : tellNodes story fuel found.1 group 0 found.2.nodes (w.addBlock group) with
  | error log =>
      rw [Walk.error_bind (Walk.within_error h)]
      rfl
  | ok result =>
      rcases result with ⟨flow, v⟩
      rw [Walk.ok_bind (Walk.within_ok h)]
      exact hafter flow v.dropBlock

/-- A group that is entered comes before the rest of the group it was entered from. -/
theorem proceed_andThen (hgroup : story.group place.group = .ok found)
    (hentered : story.group group = .ok entered) :
    proceed story place.body levels (Walk.andThen (tellGroup story (tellNodes story fuel) group)
        (tellNodes story fuel found.1 place.group (place.index + 1)
          (found.2.nodes.drop (place.index + 1))) w) =
      tellBelow story false ((⟨group, 0, false⟩, fuel) :: (place.past, fuel) :: levels) .onward
        (w.addBlock group) := by
  refine proceed_tellGroup hentered fun flow v => ?_
  cases flow with
  | onward => exact (tellBelow_onward place.past hgroup).symm
  | leave => rfl
  | again => rfl

/-- What has been told before stays told. -/
theorem tellBelow_extends (body : Bool) (levels : List Level) (flow : Flow) (w : World) :
    w.log <+: tellBelow story body levels flow w := by
  induction levels generalizing body flow w with
  | nil => exact List.prefix_append _ _
  | cons level levels ih =>
      rcases level with ⟨place, fuel⟩
      simp only [tellBelow]
      split
      · have hbelow := ih place.body flow w.dropBlock
        exact hbelow
      · next index _ =>
        have hfrom : Walk.Extends (tellFrom story fuel place.group index) :=
          (Walk.Extends.ofExcept _).bind fun _ => Walk.Extends.nodes _ _ _ _ _
        split
        · next hwalk => exact hfrom.error hwalk
        · next flow v hwalk =>
          have hbelow := ih place.body flow v.dropBlock
          exact (hfrom.ok hwalk).trans hbelow

end Places

/-! ## Fuel -/

/-- A bound for the number of steps that the fuel is enough for.  A node that leads into a group
makes two levels of one, so the bound is more than doubled for each unit. -/
def weight (levels : List Level) : Nat :=
  (levels.map fun level => 3 ^ level.2).sum

/-- In `n` steps the first levels become the second ones. -/
structure Spent (n : Nat) (whole levels : List Level) : Prop where
  weight : weight levels + n ≤ weight whole
  fuel : ∀ m, (∀ level ∈ whole, m + n ≤ level.2) → ∀ level ∈ levels, m ≤ level.2

namespace Spent

variable {n k fuel : Nat} {whole levels lower : List Level} {place first second : Place}

theorem refl (levels : List Level) : Spent 0 levels levels :=
  ⟨Nat.le_refl _, fun _ h => h⟩

/-- Steps spend levels one after the other. -/
theorem trans (h : Spent n whole levels) (h' : Spent k levels lower) :
    Spent (n + k) whole lower where
  weight := by
    have hfirst := h.weight
    have hsecond := h'.weight
    omega
  fuel := by
    intro m hm
    refine h'.fuel m (h.fuel (m + k) ?_)
    intro level hlevel
    have hbound := hm level hlevel
    omega

/-- Fuel that is missing later was missing from the start. -/
theorem starved (h : Spent n whole levels) (hlevel : ∃ level ∈ levels, level.2 < k) :
    ∃ level ∈ whole, level.2 < k + n := by
  by_contra hall
  rcases hlevel with ⟨level, hmem, hlt⟩
  have hbound := h.fuel k (fun level hlevel => by
    by_contra hshort
    exact hall ⟨level, hlevel, by omega⟩) level hmem
  omega

theorem onward (first : Place) :
    Spent 1 ((place, fuel + 1) :: levels) ((first, fuel) :: levels) where
  weight := by
    have hpos : 0 < 3 ^ fuel := Nat.pow_pos (by decide)
    simp only [StoryPlayer.weight, List.map_cons, List.sum_cons, Nat.pow_succ]
    omega
  fuel := by
    intro m hm level hlevel
    rcases List.mem_cons.1 hlevel with rfl | hold
    · have hbound := hm _ List.mem_cons_self
      exact Nat.le_of_succ_le_succ hbound
    · exact Nat.le_of_succ_le (hm level (List.mem_cons_of_mem _ hold))

theorem into :
    Spent 1 ((place, fuel + 1) :: levels) ((first, fuel) :: (second, fuel) :: levels) where
  weight := by
    have hpos : 0 < 3 ^ fuel := Nat.pow_pos (by decide)
    simp only [StoryPlayer.weight, List.map_cons, List.sum_cons, Nat.pow_succ]
    omega
  fuel := by
    intro m hm level hlevel
    rcases List.mem_cons.1 hlevel with rfl | hlater
    · exact Nat.le_of_succ_le_succ (hm _ List.mem_cons_self)
    · exact (onward second).fuel m hm level hlater

/-- Levels come to an end. -/
theorem suffix (h : lower <:+ levels) : Spent 1 ((place, fuel) :: levels) lower where
  weight := by
    have hpos : 0 < 3 ^ fuel := Nat.pow_pos (by decide)
    rcases h with ⟨upper, rfl⟩
    simp only [StoryPlayer.weight, List.map_cons, List.sum_cons, List.map_append, List.sum_append]
    omega
  fuel := by
    intro m hm level hlevel
    exact Nat.le_of_succ_le (hm level (List.mem_cons_of_mem _ (h.subset hlevel)))

/-- What is left does not depend on where a level stands. -/
theorem moved (h : Spent n whole ((place, fuel) :: levels)) :
    Spent n whole ((first, fuel) :: levels) where
  weight := h.weight
  fuel := by
    intro m hm level hlevel
    rcases List.mem_cons.1 hlevel with rfl | hold
    · exact h.fuel m hm (place, fuel) List.mem_cons_self
    · exact h.fuel m hm level (List.mem_cons_of_mem _ hold)

end Spent

/-! ## Frames and levels -/

/-- The frames stand at the places of the levels, and none of them was called by another script. -/
def Frames.Tracked (frames : List Frame) (levels : List Level) : Prop :=
  List.Forall₂ (fun f level => f.place = level.1 ∧ f.continuation = none) frames levels

namespace Frames.Tracked

variable {fs gs : List Frame} {f : Frame} {levels : List Level} {place : Place} {fuel n : Nat}

/-- New values do not move frames. -/
theorem revalued (h : Tracked fs levels) (hgs : Revalued fs gs) : Tracked gs levels := by
  unfold Tracked Revalued at *
  induction hgs generalizing levels with
  | nil => exact h
  | @cons f g _ _ hhead _ ih =>
      cases h with
      | cons hfirst hrest =>
          refine List.Forall₂.cons ?_ (ih hrest)
          rw [hhead.same]
          exact hfirst

/-- The innermost frame has a level. -/
theorem exists_level (h : Tracked (f :: fs) levels) :
    ∃ fuel lower, levels = (f.place, fuel) :: lower := by
  cases h with
  | @cons _ level _ lower hfirst _ => exact ⟨level.2, lower, by rw [hfirst.1]⟩

/-- A frame that moves on stands at the next place. -/
theorem advanced (h : Tracked (f :: fs) ((place, n) :: levels)) :
    Tracked (f.advanced :: fs) ((place.past, fuel) :: levels) := by
  cases h with
  | cons hfirst hrest => exact List.Forall₂.cons ⟨congrArg Place.past hfirst.1, hfirst.2⟩ hrest

/-- How much fuel is left does not matter for where frames stand. -/
theorem refueled (h : Tracked (f :: fs) ((place, n) :: levels)) :
    Tracked (f :: fs) ((place, fuel) :: levels) := by
  cases h with
  | cons hfirst hrest => exact List.Forall₂.cons hfirst hrest

end Frames.Tracked

/-! ## Loops -/

/-- What becomes of a telling when a group, which may be the body of a loop, leaves or repeats the
innermost loop: the frame of the loop goes on, or there is none. -/
inductive Unwound (story : Story) (flow : Flow) (p : Player) (body : Bool)
    (levels : List Level) : Prop
  | caught {owner : Frame} {under : List Frame} {found : String × Group} {lower : List Level} :
      Act.belowLoop? p.frames = some (owner :: under) → story.group owner.group = .ok found →
      Act.isLoop found.2.nodes[owner.node]? = true → lower <:+ levels →
      Frames.Tracked (owner :: under) lower →
      (∀ picks log, tellBelow story body levels flow (p.world picks log).dropBlock =
        tellBelow story true lower flow
          (Player.world { p with frames := owner :: under } picks log)) →
      Unwound story flow p body levels
  | outside :
      (∀ owner under, Act.belowLoop? p.frames ≠ some (owner :: under)) →
      (∀ picks log, tellBelow story body levels flow (p.world picks log).dropBlock =
        log ++ flow.told) →
      Unwound story flow p body levels

/-- A telling unwinds in the same way as the frames. -/
theorem unwound_of_tracked {flow : Flow} {f : Frame} {below : List Frame} {level : Level}
    {levels : List Level} {counter : UInt64} (hflow : flow ≠ .onward)
    (hstack : Frames.Stacked story counter (f :: below))
    (htracked : Frames.Tracked (f :: below) (level :: levels)) (hp : p.frames = f :: below) :
    Unwound story flow p level.1.body levels := by
  induction below generalizing f level levels p with
  | nil =>
      -- The frame at the bottom runs the script itself, and is in no loop.
      cases htracked with
      | cons _ hrest =>
          cases hrest
          refine Unwound.outside ?_ fun picks log => rfl
          intro owner under h
          simp [hp, Act.belowLoop?] at h
  | cons g below ih =>
      cases htracked with
      | cons hfirst hrest =>
          rcases hfirst with ⟨hplace, hown⟩
          have hworld : ∀ picks log, (p.world picks log).dropBlock =
              Player.world { p with frames := g :: below } picks log := by
            intro picks log
            simp only [Player.world, World.dropBlock, hp]
            rfl
          rw [← hplace]
          -- The frame is the body of a loop, or the group around it has to decide.
          cases (List.isChain_cons_cons.1 hstack.linked).1 with
          | called _ hc _ _ _ => simp [hown] at hc
          | looping _ _ hbody hloop =>
              rcases Frame.current?_eq_some hloop with ⟨found, hgroup, hnode⟩
              have hbelow : Act.belowLoop? p.frames = some (g :: below) := by
                simp [hp, Act.belowLoop?, hbody]
              have hin : f.place.body = true := by simp [Frame.place, hbody]
              refine Unwound.caught hbelow hgroup ?_ (List.suffix_refl _) hrest ?_
              · rw [hnode]
                rfl
              · intro picks log
                rw [hin, hworld]
          | nested hroot _ hchild _ _ _ =>
              have hbelow : Act.belowLoop? p.frames = Act.belowLoop? (g :: below) := by
                simp [hp, Act.belowLoop?, hchild, hroot]
              have hin : f.place.body = false := by simp [Frame.place, hchild]
              cases hrest with
              | @cons _ next _ levels hnext hrest' =>
                  have hskip : ∀ picks log,
                      tellBelow story f.place.body (next :: levels) flow
                          (p.world picks log).dropBlock =
                        tellBelow story next.1.body levels flow
                          (Player.world { p with frames := g :: below } picks log).dropBlock := by
                    intro picks log
                    rw [hin, hworld]
                    cases flow with
                    | onward => exact absurd rfl hflow
                    | leave => rfl
                    | again => rfl
                  have hrec :
                      Unwound story flow { p with frames := g :: below } next.1.body levels :=
                    ih hstack.tail (List.Forall₂.cons hnext hrest') rfl
                  cases hrec with
                  | caught h hgroup hloop hsuffix hlower hresume =>
                      refine Unwound.caught (hbelow.trans h) hgroup hloop
                        (hsuffix.trans (List.suffix_cons _ _)) hlower fun picks log => ?_
                      rw [hskip, hresume]
                  | outside h hresume =>
                      refine Unwound.outside (fun owner under heq => ?_) fun picks log => ?_
                      · exact h owner under (hbelow.symm.trans heq)
                      · rw [hskip, hresume]

/-- What is left below the loop that the frames go back to. -/
theorem lower_of_belowLoop {flow : Flow} {f owner : Frame} {below under : List Frame}
    {level : Level} {levels : List Level} {counter : UInt64} (hflow : flow ≠ .onward)
    (hstack : Frames.Stacked story counter (f :: below))
    (htracked : Frames.Tracked (f :: below) (level :: levels)) (hp : p.frames = f :: below)
    (hbelow : Act.belowLoop? p.frames = some (owner :: under)) :
    ∃ lower, lower <:+ levels ∧ Frames.Tracked (owner :: under) lower ∧
      ∀ picks log, tellBelow story level.1.body levels flow (p.world picks log).dropBlock =
        tellBelow story true lower flow
          (Player.world { p with frames := owner :: under } picks log) := by
  cases unwound_of_tracked hflow hstack htracked hp with
  | outside hnone _ => exact absurd hbelow (hnone owner under)
  | @caught _ _ _ lower hcaught _ _ hsuffix hlower hsame =>
      rcases List.cons.inj (Option.some.inj (hcaught.symm.trans hbelow)) with ⟨rfl, rfl⟩
      exact ⟨lower, hsuffix, hlower, hsame⟩

end StoryPlayer
