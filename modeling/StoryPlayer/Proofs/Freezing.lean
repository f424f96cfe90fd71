import Mathlib.Data.List.DropRight
import StoryPlayer.Proofs.References

/-!
# Lower frames

Whatever runs on top of the stack, the frames below it rest: of them only the values of variables
change.

- `Frames.SameBelow` says that at most the innermost frame of one of two stacks stands above what
  they have in common,
- `Step.sameBelow` and `Answer.sameBelow` show this for single steps and answers: what they replace
  is the innermost frame, or they drop frames until another one is innermost,
- `lowest_revalued` concludes that the lowest frames rest as long as the stack stays higher.
-/

namespace StoryPlayer

/-! ## What two stacks have in common -/

namespace Frames

variable {fs gs hs : List Frame} {f g : Frame} {below : List Frame}

/-- The frames that correspond to the lower part of a stack are the lower part of the other one. -/
theorem Revalued.suffix (h : Revalued fs gs) (hbelow : below <:+ gs) :
    ∃ under, under <:+ fs ∧ Revalued under below := by
  rcases hbelow with ⟨above, rfl⟩
  exact ⟨fs.drop above.length, List.drop_suffix _ _, List.forall₂_drop_append fs above below h⟩

/-- The stacks have a lower part in common, up to values, and one of them has at most its innermost
frame above it. -/
def SameBelow (fs gs : List Frame) : Prop :=
  ∃ under under', under <:+ fs ∧ under' <:+ gs ∧ Revalued under under' ∧
    (fs.length ≤ under.length + 1 ∨ gs.length ≤ under.length + 1)

namespace SameBelow

theorem refl (fs : List Frame) : SameBelow fs fs :=
  ⟨fs, fs, List.suffix_refl _, List.suffix_refl _, Revalued.refl fs, Or.inl (Nat.le_succ _)⟩

/-- Only values change, and then frames are pushed. -/
theorem of_suffix (h : Revalued fs hs) (hhs : hs <:+ gs) : SameBelow fs gs :=
  ⟨fs, hs, List.suffix_refl _, hhs, h, Or.inl (Nat.le_succ _)⟩

/-- The innermost frame is replaced by other frames. -/
theorem of_tail (h : Revalued below hs) (hhs : hs <:+ gs) : SameBelow (f :: below) gs :=
  ⟨below, hs, List.suffix_cons f below, hhs, h, Or.inl (Nat.le_refl _)⟩

/-- Frames are dropped, and what is left is at most put under another innermost frame. -/
theorem of_dropped (hbelow : below <:+ fs) (h : Revalued below hs) (hhs : hs <:+ gs)
    (hlength : gs.length ≤ hs.length + 1) : SameBelow fs gs :=
  ⟨below, hs, hbelow, hhs, h, Or.inr (by rwa [h.length_eq])⟩

end SameBelow

/-- Frames that lie in a lower part of a stack are counted from its bottom. -/
theorem rtake_of_suffix {d : Nat} (h : below <:+ fs) (hd : d ≤ below.length) :
    fs.rtake d = below.rtake d := by
  rcases h with ⟨above, rfl⟩
  have hlength : (above ++ below).length - d = above.length + (below.length - d) := by
    rw [List.length_append]
    omega
  unfold List.rtake
  rw [hlength, List.drop_append]
  simp

/-- Frames that lie below the innermost ones of both stacks belong to the common part. -/
theorem SameBelow.lowest {d : Nat} (h : SameBelow fs gs) (hfs : d < fs.length)
    (hgs : d < gs.length) : Revalued (fs.rtake d) (gs.rtake d) := by
  rcases h with ⟨under, under', hunder, hunder', hrevalued, hlength⟩
  have hd : d ≤ under.length := by omega
  have hsame : under.length = under'.length := hrevalued.length_eq
  rw [rtake_of_suffix hunder hd, rtake_of_suffix hunder' (hsame ▸ hd)]
  unfold List.rtake
  rw [hsame]
  exact List.forall₂_drop _ hrevalued

end Frames

variable {story : Story} {script : String} {p q : Player}

open Frames (SameBelow Revalued)

/-! ## Steps and answers -/

/-- A script that ends gives way to its caller, the only frame that moves. -/
theorem Settled.sameBelow {scope : Dict Value} {c : Option Continuation} {frames below : List Frame}
    {result : Except Fault Unit} (h : Settled story scope p c below result q)
    (hbelow : below <:+ frames) : SameBelow frames q.frames := by
  cases h with
  | concluded =>
      exact SameBelow.of_dropped List.nil_suffix (Revalued.refl []) List.nil_suffix (Nat.zero_le _)
  | @back c lower lower' under under' hback =>
      have hrevalued := Frames.revalued_writeBack story scope c.refs (lower :: under)
      rw [hback] at hrevalued
      cases hrevalued with
      | cons _ htail =>
          exact SameBelow.of_dropped ((List.suffix_cons lower under).trans hbelow) htail
            (List.suffix_cons _ _) (Nat.le_refl _)
  | @failed c _ after fault hback =>
      have hrevalued := Frames.revalued_writeBack story scope c.refs below
      rw [hback] at hrevalued
      exact SameBelow.of_dropped hbelow hrevalued (List.suffix_refl _) (Nat.le_succ _)

/-- Formulas change values, and then the innermost frame is replaced by other frames. -/
theorem Player.Evaluated.sameBelow {f : Frame} {below gs : List Frame} (heval : p.Evaluated q)
    (hq : q.frames = f :: below) (hgs : below <:+ gs) : SameBelow p.frames gs := by
  rcases heval.cons hq with ⟨g, under, hp, -, hunder⟩
  rw [hp]
  exact SameBelow.of_tail hunder hgs

/-- A node that is run to its end moves the innermost frame, pushes a frame, or drops frames until
another one is innermost. -/
theorem Move.sameBelow {node : Node} {out : Option Output} (h : Move story script p node out q)
    (hp : Frames.Stacked story p.counter p.frames) : SameBelow p.frames q.frames := by
  cases h with
  -- Most nodes replace the innermost frame only, or push another one on it.
  | textUsed _ hframes =>
      exact (Player.Evaluated.refl p).sameBelow hframes (List.suffix_cons _ _)
  | text _ hrender hframes =>
      exact ((Act.evaluates_render story _).ok hrender).sameBelow hframes (List.suffix_cons _ _)
  | code hexecute hframes =>
      exact ((Act.evaluates_execute story _).ok hexecute).sameBelow hframes (List.suffix_cons _ _)
  | declare hvalue hframes _ _ => exact hvalue.evaluated.sameBelow hframes (List.suffix_cons _ _)
  | branchOver hcondition hframes =>
      have heval := (Act.evaluates_condition story _).ok hcondition
      exact heval.sameBelow hframes (List.suffix_cons _ _)
  | branchInto hcondition hframes _ _ =>
      have heval := (Act.evaluates_condition story _).ok hcondition
      exact heval.sameBelow hframes ((List.suffix_cons _ _).trans (List.suffix_cons _ _))
  | loopOver hcondition hframes =>
      have heval := (Act.evaluates_condition story _).ok hcondition
      exact heval.sameBelow hframes (List.suffix_cons _ _)
  | loopInto hcondition _ =>
      have heval := (Act.evaluates_condition story _).ok hcondition
      exact SameBelow.of_suffix heval.frames (List.suffix_cons _ _)
  | choiceOver hoffered hframes =>
      have heval := (Act.evaluates_offered story _ _).ok hoffered
      exact heval.sameBelow hframes (List.suffix_cons _ _)
  | choice hoffered _ hitems hprompt _ =>
      have heval := evaluated_of_choice hoffered hitems hprompt
      exact SameBelow.of_suffix heval.frames (List.suffix_refl _)
  | call _ _ _ _ hpassed _ _ =>
      have heval := (Act.evaluates_passArguments story _ _ _ _ _).ok hpassed
      exact SameBelow.of_suffix heval.frames (List.suffix_cons _ _)
  | tailCall hframes _ _ _ hpassed _ _ _ _ =>
      have heval := (Act.evaluates_passArguments story _ _ _ _ _).ok hpassed
      exact heval.sameBelow hframes (List.suffix_cons _ _)
  | leaveScript hroot hsettle =>
      rcases Frames.currentRoot?_suffix hroot with ⟨his, hsuffix⟩
      have hsettled := settled_of_settle (hp.suffix hsuffix) his rfl hsettle
      exact hsettled.sameBelow ((List.suffix_cons _ _).trans hsuffix)
  -- A return drops frames down to a root; references are written to frames below, not into their
  -- places.
  | @transferAtBottom _ _ _ _ _ _ r root below _ _ _ hvalues _ hroot _ =>
      have heval := (Act.evaluates_transferArguments story _ _ _ _ _).ok hvalues
      have hbelow := (List.suffix_cons root below).trans (Frames.currentRoot?_suffix hroot).2
      rcases heval.frames.suffix hbelow with ⟨under, hunder, hrevalued⟩
      exact SameBelow.of_dropped hunder hrevalued (List.suffix_cons _ _) (Nat.le_refl _)
  | @transfer _ _ _ _ _ _ _ r root below after _ _ _ hvalues _ hroot _ hover =>
      have heval := (Act.evaluates_transferArguments story _ _ _ _ _).ok hvalues
      have hbelow := (List.suffix_cons root below).trans (Frames.currentRoot?_suffix hroot).2
      rcases heval.frames.suffix hbelow with ⟨under, hunder, hrevalued⟩
      exact SameBelow.of_dropped hunder (hrevalued.trans hover.revalued) (List.suffix_cons _ _)
        (Nat.le_refl _)
  | @leave _ owner below _ hloop _ _ =>
      have hbelow := (List.suffix_cons owner below).trans (Frames.belowLoop?_suffix hloop)
      exact SameBelow.of_dropped hbelow (Revalued.refl below) (List.suffix_cons _ _) (Nat.le_refl _)
  | again hloop _ _ =>
      exact SameBelow.of_dropped (Frames.belowLoop?_suffix hloop) (Revalued.refl _)
        (List.suffix_refl _) (Nat.le_succ _)

/-- The end of a group leaves the frames below its own, up to values. -/
theorem finishFrame_sameBelow {f : Frame} {below : List Frame} {result : Except Fault Unit}
    (hstack : Frames.Stacked story p.counter p.frames) (hp : p.frames = f :: below)
    (h : p.finishFrame story f.id = (result, q)) : SameBelow p.frames q.frames := by
  rw [hp] at hstack ⊢
  rw [finishFrame_top hstack hp] at h
  by_cases hroot : f.root = true
  · rw [if_pos hroot] at h
    exact (settled_of_settle hstack hroot rfl h).sameBelow (List.suffix_cons f below)
  · rw [if_neg hroot] at h
    cases h
    exact SameBelow.of_tail (Revalued.refl below) (List.suffix_refl below)

/-- A step changes at most the innermost frame; below it only values change. -/
theorem Step.sameBelow {progress : Progress} (h : Step story p progress q)
    (hp : Frames.Stacked story p.counter p.frames) : SameBelow p.frames q.frames := by
  cases h with
  | concluded _ => exact SameBelow.refl _
  | groupMissing _ _ => exact SameBelow.refl _
  | finished hframes _ _ hfinish => exact finishFrame_sameBelow hp hframes hfinish
  | finishFailed hframes _ _ hfinish => exact finishFrame_sameBelow hp hframes hfinish
  | moved _ _ _ hmove => exact hmove.sameBelow hp
  | nodeFailed _ _ _ _ => exact SameBelow.refl _

/-- The frame of a choice that is answered is the innermost one. -/
theorem Answer.sameBelow {index : Nat} (h : Answer story p index q) (hp : p.WellFormed story) :
    SameBelow p.frames q.frames := by
  cases h with
  | @mk c _ f below _ _ _ hpending _ hframe _ _ _ =>
      rcases upTo?_pending hp hpending with ⟨top, under, hframes, htop⟩
      rcases Prod.mk.inj (Option.some.inj (htop.symm.trans hframe)) with ⟨rfl, rfl⟩
      rw [hframes]
      exact SameBelow.of_tail (Revalued.refl under)
        ((List.suffix_cons _ _).trans (List.suffix_cons _ _))

/-! ## Runs -/

/-- From one state of a run to the next only the innermost frame changes. -/
theorem Story.Run.sameBelow {run : List (Started × Player)} (h : story.Run run) :
    run.IsChain fun later earlier => SameBelow earlier.2.frames later.2.frames := by
  induction h with
  | start _ => exact List.IsChain.singleton _
  | step hrun _ hdispatch _ ih =>
      rcases hrun.registered _ List.mem_cons_self with ⟨hwf, -⟩
      exact List.isChain_cons_cons.2 ⟨(step_of_dispatch hdispatch).sameBelow hwf.stacked, ih⟩
  | answer hrun hanswer _ ih =>
      rcases hrun.registered _ List.mem_cons_self with ⟨hwf, -⟩
      exact List.isChain_cons_cons.2 ⟨hanswer.sameBelow hwf, ih⟩

/-- As long as the stack has more than `d` frames, of the lowest `d` frames only the values of
declared variables change. -/
theorem lowest_revalued {run stretch : List (Started × Player)} {d : Nat} (h : story.Run run)
    (hstretch : stretch <:+: run) (hdeep : ∀ s ∈ stretch, d < s.2.frames.length) :
    stretch.Pairwise fun later earlier =>
      Revalued (earlier.2.frames.rtake d) (later.2.frames.rtake d) := by
  have hchain := h.sameBelow.infix hstretch
  clear hstretch
  induction stretch with
  | nil => exact List.Pairwise.nil
  | cons later rest ih =>
      have hrest := ih (fun s hs => hdeep s (List.mem_cons_of_mem _ hs)) hchain.tail
      refine List.pairwise_cons.2 ⟨fun s hs => ?_, hrest⟩
      -- The state before the latest one is the first of the rest, and all others come before it.
      cases rest with
      | nil => cases hs
      | cons earlier past =>
          have hnext : Revalued (earlier.2.frames.rtake d) (later.2.frames.rtake d) :=
            (List.isChain_cons_cons.1 hchain).1.lowest
              (hdeep earlier (List.mem_cons_of_mem _ List.mem_cons_self))
              (hdeep later List.mem_cons_self)
          rcases List.mem_cons.1 hs with rfl | hs
          · exact hnext
          · exact ((List.pairwise_cons.1 hrest).1 s hs).trans hnext

/-- A variable of the lowest frame is passed by reference from a branch. -/
def lendingTale : Story :=
  .ofScripts [
    ("helper", .ofGroups "helper" [⟨"p", .primitive .string, true⟩] [
      ("helper", [.code "c" "p = \"new\";"])]),
    ("main", .ofGroups "main" [] [
      ("main", [.declare "v" ⟨"x", .primitive .string, none⟩, .branch "b" "true" "main.b" none]),
      ("main.b", [.call "k" "helper" [⟨"x", true⟩], .text "t" "${x}" false])])]

/-- While the script that is called runs and returns, the lowest frame takes a new value and nothing
else of it changes. -/
theorem lowest_revalued_lendingTale :
    ∃ stretch past, lendingTale.Run (stretch ++ past) ∧
      (∀ s ∈ stretch, 1 < s.2.frames.length) ∧
      stretch.map (fun s => (s.2.frames.map Frame.group,
          (s.2.frames.findSome? fun f => Dict.get? f.scope "x").bind Value.asText?)) =
        [(["main.b", "main"], some "new"), (["helper", "main.b", "main"], some ""),
          (["helper", "main.b", "main"], some ""), (["main.b", "main"], some "")] ∧
      stretch.Pairwise fun later earlier =>
        Revalued (earlier.2.frames.rtake 1) (later.2.frames.rtake 1) := by
  have hstart : Player.begin lendingTale "main" [] = .ok lendingTale.opening := rfl
  have hdeclared := (Story.Run.start hstart).step rfl (Prod.eta _).symm (by decide +kernel)
  have hentered := hdeclared.step (by decide +kernel) (Prod.eta _).symm (by decide +kernel)
  have hcalled := hentered.step (by decide +kernel) (Prod.eta _).symm (by decide +kernel)
  have hassigned := hcalled.step (by decide +kernel) (Prod.eta _).symm (by decide +kernel)
  have hreturned := hassigned.step (by decide +kernel) (Prod.eta _).symm (by decide +kernel)
  refine ⟨[_, _, _, _], [_, _], hreturned, ?deep, by decide +kernel, ?frozen⟩
  case deep => decide +kernel
  case frozen => exact lowest_revalued hreturned ⟨[], [_, _], rfl⟩ (by decide +kernel)

end StoryPlayer
