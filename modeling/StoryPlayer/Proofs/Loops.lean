import StoryPlayer.Proofs.Retry
import StoryPlayer.Proofs.Returning

/-!
# Leaving loops and starting them again

A node that leaves a loop, or tests it again, goes back to the frame that runs the loop.

- `Frames.inside` are the frames of the innermost script above the one in which it has started,
- `Frames.InnermostLoop` is the innermost loop among them: its body, the frames above and below,
- `Frames.Stacked.loop_owner` shows that the frame below the body still stands at the loop, and
  `Frames.Stacked.not_isLoop_caller` that the caller of a script stands at none,
- `dispatch_loopControl` concludes where these nodes lead to, and when they fail.
-/

namespace StoryPlayer

/-! ## The innermost loop -/

/-- What a node that goes back to a loop is called, and how far the frame of the loop moves on. -/
def Node.loopControl? : Node → Option (String × Nat)
  | .leave _ => some ("break", 1)
  | .again _ => some ("continue", 0)
  | _ => none

def Frame.movedOn (f : Frame) (moves : Nat) : Frame :=
  { f with node := f.node + moves }

namespace Frames

variable {story : Story} {counter : UInt64} {frames upper lower outer : List Frame}
  {f body root owner : Frame} {below : List Frame}

/-- The frames of the innermost script above the one in which it has started. -/
def inside (frames : List Frame) : List Frame :=
  frames.takeWhile fun f => !f.root

theorem inside_of_inner (h : f.root = false) : inside (f :: frames) = f :: inside frames := by
  simp [inside, h]

/-- Nothing is inside of a script above the frame in which it has started. -/
theorem inside_of_root (h : f.root = true) : inside (f :: frames) = [] := by
  simp [inside, h]

/-- A loop runs in the innermost script: the body of the innermost one, the frames above it and the
frames below it. -/
structure InnermostLoop (frames upper : List Frame) (body : Frame) (lower : List Frame) : Prop where
  split : frames = upper ++ body :: lower
  above : ∀ f ∈ upper, f.root = false ∧ f.completion ≠ .whileBody
  inner : body.root = false
  loops : body.completion = .whileBody

/-- A loop runs in the innermost script if one of its frames is the body of a loop. -/
theorem exists_innermostLoop (h : ∃ f ∈ inside frames, f.completion = .whileBody) :
    ∃ upper body lower, InnermostLoop frames upper body lower := by
  induction frames with
  | nil => simp [inside] at h
  | cons f below ih =>
      cases hroot : f.root with
      | true => simp [inside_of_root hroot] at h
      | false =>
          by_cases hbody : f.completion = .whileBody
          · exact ⟨[], f, below, rfl, by simp, hroot, hbody⟩
          · rw [inside_of_inner hroot] at h
            obtain ⟨upper, body, lower, hloop⟩ := ih (by simpa [hbody] using h)
            refine ⟨f :: upper, body, lower, congrArg (f :: ·) hloop.split, ?_, hloop.inner,
              hloop.loops⟩
            exact List.forall_mem_cons.2 ⟨⟨hroot, hbody⟩, hloop.above⟩

/-- Frames that are neither bodies of loops nor those of scripts are passed over. -/
theorem belowLoop?_append (h : ∀ f ∈ upper, f.root = false ∧ f.completion ≠ .whileBody) :
    Act.belowLoop? (upper ++ frames) = Act.belowLoop? frames := by
  induction upper with
  | nil => rfl
  | cons f rest ih =>
      rw [List.forall_mem_cons] at h
      rcases h with ⟨⟨hinner, hother⟩, hrest⟩
      simp [Act.belowLoop?, hinner, hother, ih hrest]

/-- Frames inside of a script are passed over. -/
theorem currentRoot?_append (h : ∀ f ∈ upper, f.root = false) :
    currentRoot? (upper ++ frames) = currentRoot? frames := by
  induction upper with
  | nil => rfl
  | cons f rest ih =>
      rw [List.forall_mem_cons] at h
      simp [currentRoot?, h.1, ih h.2]

namespace InnermostLoop

/-- The innermost loop that is there is the one that is found. -/
theorem belowLoop? (h : InnermostLoop frames upper body lower) :
    Act.belowLoop? frames = some lower := by
  rw [h.split, belowLoop?_append h.above]
  simp [Act.belowLoop?, h.loops]

/-- The body of the loop and what lies below are the lower end of the stack. -/
theorem suffix (h : InnermostLoop frames upper body lower) : body :: lower <:+ frames :=
  ⟨upper, h.split.symm⟩

/-- The body is that of a loop of the innermost script: the script has started below it. -/
theorem currentRoot? (h : InnermostLoop frames upper body lower) :
    currentRoot? frames = currentRoot? lower := by
  rw [h.split, currentRoot?_append fun f hf => (h.above f hf).1]
  simp [Frames.currentRoot?, h.inner]

/-- The scripts below the innermost one are not concerned by its loops. -/
theorem outer_suffix (h : InnermostLoop frames upper body (owner :: below))
    (hroot : Frames.currentRoot? frames = some (root, outer)) : outer <:+ below := by
  rw [h.currentRoot?] at hroot
  rcases List.suffix_cons_iff.1 (currentRoot?_suffix hroot).2 with hsame | hbelow
  · exact (List.cons.inj hsame).2 ▸ List.suffix_refl _
  · exact (List.suffix_cons _ _).trans hbelow

end InnermostLoop

/-- Without a loop in the innermost script the search ends at the frame in which it has started. -/
theorem belowLoop?_of_no_loop (h : ¬ ∃ f ∈ inside frames, f.completion = .whileBody) :
    Act.belowLoop? frames = none ∨
      ∃ root outer, root.root = true ∧ root :: outer <:+ frames ∧
        Act.belowLoop? frames = some outer := by
  induction frames with
  | nil => exact Or.inl rfl
  | cons f below ih =>
      cases hroot : f.root with
      | true =>
          by_cases hbody : f.completion = .whileBody
          · exact Or.inr ⟨f, below, hroot, List.suffix_refl _, by simp [Act.belowLoop?, hbody]⟩
          · exact Or.inl (by simp [Act.belowLoop?, hbody, hroot])
      | false =>
          rw [inside_of_inner hroot, List.exists_mem_cons_iff, not_or] at h
          have hsame : Act.belowLoop? (f :: below) = Act.belowLoop? below := by
            simp [Act.belowLoop?, h.1, hroot]
          rw [hsame]
          rcases ih h.2 with hnone | ⟨root, outer, his, hsuffix, hfound⟩
          · exact Or.inl hnone
          · exact Or.inr ⟨root, outer, his, hsuffix.trans (List.suffix_cons _ _), hfound⟩

/-! ## Stacks of the right shape -/

namespace Stacked

/-- The frame below the body of a loop still stands at the loop. -/
theorem loop_owner (h : Stacked story counter (body :: lower)) (hinner : body.root = false)
    (hloops : body.completion = .whileBody) :
    ∃ owner below id source, lower = owner :: below ∧
      owner.current? story = some (.loop id source body.group) := by
  cases lower with
  | nil => simpa [hinner] using h.bottom body rfl
  | cons owner below =>
      -- A script that is called is a root, and a branch is completed in another way.
      cases (List.isChain_cons_cons.1 h.linked).1 with
      | called hroot _ _ _ _ => simp [hinner] at hroot
      | looping _ _ _ hcurrent => exact ⟨owner, below, _, _, rfl, hcurrent⟩
      | nested _ _ hchild _ _ _ => simp [hloops] at hchild

/-- The frame below that of a script stands at a call, which is no loop. -/
theorem not_isLoop_caller {found : String × Group}
    (h : Stacked story counter (root :: owner :: below)) (hroot : root.root = true)
    (hgroup : story.group owner.group = .ok found) :
    Act.isLoop found.2.nodes[owner.node]? = false := by
  cases (List.isChain_cons_cons.1 h.linked).1 with
  | called _ _ _ _ hcurrent =>
      rw [Frame.current?, nodeAt?_of_group hgroup] at hcurrent
      rw [hcurrent, Act.isLoop]
      simp
  | looping hinner _ _ _ => simp [hroot] at hinner
  | nested hinner _ _ _ _ _ => simp [hroot] at hinner

/-- Some script runs as long as there are frames. -/
theorem exists_currentRoot? (h : Stacked story counter (f :: below)) :
    ∃ root outer, Frames.currentRoot? (f :: below) = some (root, outer) := by
  induction below generalizing f with
  | nil => exact ⟨f, [], by simp [Frames.currentRoot?, (h.bottom f rfl).1]⟩
  | cons lower under ih =>
      by_cases hroot : f.root = true
      · exact ⟨f, lower :: under, by simp [Frames.currentRoot?, hroot]⟩
      · rcases ih h.tail with ⟨root, outer, hfound⟩
        exact ⟨root, outer, by rw [Frames.currentRoot?, if_neg hroot, hfound]⟩

end Stacked
end Frames

/-! ## Going back to a loop -/

section Control

variable {story : Story} {p : Player} {frames upper lower : List Frame} {body owner : Frame}
  {below : List Frame} {keyword : String}

/-- If the frame below the body stands at a loop, it becomes the innermost one. -/
theorem backToLoop_of_owner {id source group : String}
    (hbelow : Act.belowLoop? p.frames = some (owner :: below))
    (hcurrent : owner.current? story = some (.loop id source group)) :
    Act.backToLoop story keyword p = .ok ((), { p with frames := owner :: below }) := by
  rcases Frame.current?_eq_some hcurrent with ⟨found, hgroup, hnode⟩
  have hget : (get : Act Player) p = .ok (p, p) := rfl
  have hlift : (liftM (story.group owner.group) : Act (String × Group)) p = .ok (found, p) :=
    Act.liftM_eq_ok.2 ⟨hgroup, rfl⟩
  rw [Act.backToLoop, Act.bind_of_ok hget]
  simp only [hbelow]
  rw [Act.bind_of_ok hlift]
  simp only [hnode, Act.isLoop, if_true]
  rfl

/-- Without a loop in the innermost script there is nowhere to go back to. -/
theorem backToLoop_of_no_loop (hp : Frames.Stacked story p.counter p.frames)
    (h : ¬ ∃ f ∈ Frames.inside p.frames, f.completion = .whileBody) :
    Act.backToLoop story keyword p = .error ⟨.outsideLoop keyword, p⟩ := by
  have hget : (get : Act Player) p = .ok (p, p) := rfl
  rw [Act.backToLoop, Act.bind_of_ok hget]
  rcases Frames.belowLoop?_of_no_loop h with hnone | ⟨root, outer, hroot, hsuffix, hfound⟩
  · simp only [hnone]
    rfl
  · -- The frame of a script is taken for a body: its caller stands at the call.
    have hstack := hp.suffix hsuffix
    simp only [hfound]
    cases outer with
    | nil => rfl
    | cons owner below =>
        rcases hstack.placed owner (by simp) with ⟨script, group, hgroup, -⟩
        have hlift : (liftM (story.group owner.group) : Act (String × Group)) p =
            .ok ((script, group), p) := Act.liftM_eq_ok.2 ⟨hgroup, rfl⟩
        have hother : Act.isLoop group.nodes[owner.node]? = false :=
          hstack.not_isLoop_caller hroot hgroup
        simp only
        rw [Act.bind_of_ok hlift]
        simp only [hother]
        rfl

variable {node : Node} {moves : Nat}

/-- The node then succeeds, and moves the frame of the loop on. -/
theorem runNode_of_owner (script group : String) (index : Nat) {id source body : String}
    (hnode : node.loopControl? = some (keyword, moves))
    (hbelow : Act.belowLoop? p.frames = some (owner :: below))
    (hcurrent : owner.current? story = some (.loop id source body)) :
    Act.runNode story script group index node p =
      .ok (none, { p with frames := owner.movedOn moves :: below }) := by
  have hback : ∀ keyword, Act.backToLoop story keyword p =
      .ok ((), { p with frames := owner :: below }) :=
    fun _ => backToLoop_of_owner hbelow hcurrent
  cases node with
  | leave id =>
      cases hnode
      have hadvance : Act.advance { p with frames := owner :: below } =
          .ok ((), { p with frames := owner.advanced :: below }) :=
        Act.advance_eq_ok.2 ⟨owner, below, rfl, rfl⟩
      rw [Act.runNode, Act.bind_of_ok (hback "break"), Act.bind_of_ok hadvance]
      rfl
  | again id =>
      cases hnode
      rw [Act.runNode, Act.bind_of_ok (hback "continue")]
      rfl
  | _ => cases hnode

/-- Without a loop in the running script the node fails and changes nothing. -/
theorem runNode_of_no_loop (script group : String) (index : Nat)
    (hnode : node.loopControl? = some (keyword, moves))
    (hp : Frames.Stacked story p.counter p.frames)
    (h : ¬ ∃ f ∈ Frames.inside p.frames, f.completion = .whileBody) :
    Act.runNode story script group index node p = .error ⟨.outsideLoop keyword, p⟩ := by
  have hback : ∀ keyword, Act.backToLoop story keyword p = .error ⟨.outsideLoop keyword, p⟩ :=
    fun _ => backToLoop_of_no_loop hp h
  cases node with
  | leave id =>
      cases hnode
      exact Act.bind_eq_error.2 (Or.inl (hback "break"))
  | again id =>
      cases hnode
      exact Act.bind_eq_error.2 (Or.inl (hback "continue"))
  | _ => cases hnode

/-- While a frame stands at such a node no choice waits for an answer. -/
theorem Player.WellFormed.open_of_loopControl (hp : p.WellFormed story)
    (hat : p.StandsAt story node) (hnode : node.loopControl? = some (keyword, moves)) : p.Open := by
  refine ⟨?_, fun hended => (hp.ended hended).1⟩
  cases hpending : p.pending with
  | none => rfl
  | some c =>
      rcases hp.pending c hpending with ⟨-, f, below, hframes, hoffered⟩
      rcases hoffered.node with ⟨prompt, options, hchoice, -⟩
      rcases hat with ⟨g, under, hframes', hcurrent⟩
      rcases List.cons.inj (hframes.symm.trans hframes') with ⟨rfl, rfl⟩
      rcases Option.some.inj (hchoice.symm.trans hcurrent) with rfl
      cases hnode

/-- The body of the innermost loop of the running script ends, and whatever runs inside of it.  The
frame below stands at the loop and moves on as given; the scripts further out are below this frame,
or below that of the running script. -/
inductive BackAtLoop (story : Story) (p : Player) (moves : Nat) : Player → Prop
  | mk {upper below outer : List Frame} {body owner root : Frame} {id source : String} :
      Frames.InnermostLoop p.frames upper body (owner :: below) →
      owner.current? story = some (.loop id source body.group) →
      Frames.currentRoot? p.frames = some (root, outer) → outer <:+ below →
      BackAtLoop story p moves { p with frames := owner.movedOn moves :: below }

/-- In a well-formed state the frame below the body always stands at its loop, so the step succeeds.
-/
theorem Player.WellFormed.dispatch_backAtLoop (hp : p.WellFormed story)
    (hat : p.StandsAt story node) (hnode : node.loopControl? = some (keyword, moves))
    (h : ∃ f ∈ Frames.inside p.frames, f.completion = .whileBody) :
    ∃ q, p.dispatch story = (.running, q) ∧ BackAtLoop story p moves q := by
  rcases hat with ⟨f, rest, hframes, hcurrent⟩
  rcases Frame.current?_eq_some hcurrent with ⟨found, hgroup, hplace⟩
  obtain ⟨upper, body, lower, hloop⟩ := Frames.exists_innermostLoop h
  obtain ⟨owner, below, id, source, rfl, howner⟩ :=
    (hp.stacked.suffix hloop.suffix).loop_owner hloop.inner hloop.loops
  obtain ⟨root, outer, hroot⟩ := (hframes ▸ hp.stacked).exists_currentRoot?
  rw [← hframes] at hroot
  have hrun := runNode_of_owner found.1 f.group f.node hnode hloop.belowLoop? howner
  refine ⟨{ p with frames := owner.movedOn moves :: below }, ?_,
    BackAtLoop.mk hloop howner hroot (hloop.outer_suffix hroot)⟩
  simp only [Player.dispatch, hframes, hgroup, hplace, hrun]

/-- Without a loop the step fails, and the state is as before. -/
theorem Player.WellFormed.dispatch_outsideLoop (hp : p.WellFormed story)
    (hat : p.StandsAt story node) (hnode : node.loopControl? = some (keyword, moves))
    (h : ¬ ∃ f ∈ Frames.inside p.frames, f.completion = .whileBody) :
    p.dispatch story = (.failed (.outsideLoop keyword), p) := by
  have hopen := hp.open_of_loopControl hat hnode
  rcases hat with ⟨f, rest, hframes, hcurrent⟩
  rcases Frame.current?_eq_some hcurrent with ⟨found, hgroup, hplace⟩
  have hfail := runNode_of_no_loop found.1 f.group f.node hnode hp.stacked h
  have hdispatch := dispatch_of_runNode hframes hgroup hplace hfail
  rwa [hopen.restored hframes] at hdispatch

end Control

/-- A node that leaves a loop or tests it again goes back to the innermost loop of the running script,
and nothing else changes.  It fails exactly if there is no such loop, whatever loops run in the
scripts further out. -/
theorem dispatch_loopControl {story : Story} {run : List (Started × Player)} (h : story.Run run)
    {started : Started} {p : Player} (hs : (started, p) ∈ run) {node : Node} {keyword : String}
    {moves : Nat} (hat : p.StandsAt story node)
    (hnode : node.loopControl? = some (keyword, moves)) :
    ((∃ f ∈ Frames.inside p.frames, f.completion = .whileBody) →
      ∃ q, p.dispatch story = (.running, q) ∧ BackAtLoop story p moves q) ∧
    (p.dispatch story = (.failed (.outsideLoop keyword), p) ↔
      ¬ ∃ f ∈ Frames.inside p.frames, f.completion = .whileBody) := by
  rcases h.registered _ hs with ⟨hwf, -⟩
  refine ⟨hwf.dispatch_backAtLoop hat hnode, ?_, hwf.dispatch_outsideLoop hat hnode⟩
  intro hfailed hinside
  obtain ⟨q, hrunning, -⟩ := hwf.dispatch_backAtLoop hat hnode hinside
  cases hrunning.symm.trans hfailed

/-- A script calls another one in a loop.  The other one leaves its own loop from a branch, and then
asks for a loop to be tested again. -/
def strandedTale : Story :=
  .ofScripts [
    ("inner", .ofGroups "inner" [] [
      ("inner", [.loop "l" "true" "inner.body", .again "a"]),
      ("inner.body", [.branch "b" "true" "inner.branch" none]),
      ("inner.branch", [.leave "e"])]),
    ("main", .ofGroups "main" [] [
      ("main", [.loop "l" "true" "main.body"]),
      ("main.body", [.call "k" "inner" []])])]

/-- The frames of the branch and of the body end, and the called script stands behind its loop.  The
loop of its caller is not the one that can be tested again from there. -/
theorem dispatch_loopControl_strandedTale :
    ∃ started last past,
      strandedTale.Run ((last, strandedTale.stepped 5) :: (started, strandedTale.stepped 4) :: past) ∧
      (strandedTale.stepped 4).StandsAt strandedTale (.leave "e") ∧
      (strandedTale.stepped 4).frames.map (fun f => (f.group, f.node)) =
        [("inner.branch", 0), ("inner.body", 1), ("inner", 0), ("main.body", 0), ("main", 0)] ∧
      BackAtLoop strandedTale (strandedTale.stepped 4) 1 (strandedTale.stepped 5) ∧
      (strandedTale.stepped 5).StandsAt strandedTale (.again "a") ∧
      (strandedTale.stepped 5).frames.map (fun f => (f.group, f.node, f.completion)) =
        [("inner", 1, .none), ("main.body", 0, .whileBody), ("main", 0, .none)] ∧
      (strandedTale.stepped 5).dispatch strandedTale =
        (.failed (.outsideLoop "continue"), strandedTale.stepped 5) := by
  have hsteps : ∀ n, (strandedTale.stepped n).dispatch strandedTale =
      (((strandedTale.stepped n).dispatch strandedTale).1, strandedTale.stepped (n + 1)) :=
    fun _ => rfl
  have hstart : Player.begin strandedTale "main" [] = .ok (strandedTale.stepped 0) := rfl
  have hlooped := (Story.Run.start hstart).step rfl (hsteps 0) (by decide +kernel)
  have hcalled := hlooped.step (by decide +kernel) (hsteps 1) (by decide +kernel)
  have hinner := hcalled.step (by decide +kernel) (hsteps 2) (by decide +kernel)
  have hbranched := hinner.step (by decide +kernel) (hsteps 3) (by decide +kernel)
  have hleft := hbranched.step (by decide +kernel) (hsteps 4) (by decide +kernel)
  have hatLeave : (strandedTale.stepped 4).StandsAt strandedTale (.leave "e") :=
    ⟨_, _, rfl, rfl⟩
  have hatAgain : (strandedTale.stepped 5).StandsAt strandedTale (.again "a") :=
    ⟨_, _, rfl, rfl⟩
  rcases dispatch_loopControl hleft (List.mem_cons_of_mem _ List.mem_cons_self) hatLeave rfl with
    ⟨hleave, -⟩
  rcases dispatch_loopControl hleft List.mem_cons_self hatAgain rfl with ⟨-, hagain⟩
  obtain ⟨q, hrunning, hback⟩ := hleave (by decide +kernel)
  obtain rfl : strandedTale.stepped 5 = q := congrArg Prod.snd hrunning
  exact ⟨_, _, _, hleft, hatLeave, by decide +kernel, hback, hatAgain, by decide +kernel,
    hagain.2 (by decide +kernel)⟩

end StoryPlayer
