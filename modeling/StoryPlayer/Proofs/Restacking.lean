import StoryPlayer.Proofs.Origin

/-!
# What becomes of the stack

All that a step or an answer can do to the stack, for stacks of any shape: also for those of a save
that was written by hand.

- `Frames.SameShape` relates stacks that differ in variables only,
- `Frames.Removed` says that a frame is taken out of a stack,
- `Restacked` lists what can become of a stack; `Step.restacked` and `Answer.restacked` show that
  there is nothing else.

An invariant that only looks at the shape of the stack is proved by cases on `Restacked`.
-/

namespace StoryPlayer

variable {story : Story} {script : String} {p q : Player}

/-! ## Shapes -/

namespace Frames

variable {fs gs : List Frame} {f g : Frame} {below : List Frame}

/-- The stacks differ in variables only. -/
def SameShape (fs gs : List Frame) : Prop :=
  gs.map Frame.outline = fs.map Frame.outline

namespace SameShape

theorem refl (fs : List Frame) : SameShape fs fs := rfl

theorem cons (hf : g.outline = f.outline) (h : SameShape fs gs) : SameShape (f :: fs) (g :: gs) := by
  unfold SameShape at *
  rw [List.map_cons, List.map_cons, hf, h]

theorem ids (h : SameShape fs gs) : gs.map Frame.id = fs.map Frame.id := by
  have hids : (gs.map Frame.outline).map Frame.id = (fs.map Frame.outline).map Frame.id := by rw [h]
  rwa [List.map_map, List.map_map] at hids

theorem has (h : SameShape fs gs) (id : UInt64) : has gs id = has fs id := by
  have hany : ∀ frames : List Frame, Frames.has frames id =
      (frames.map Frame.id).any fun other => other == id := by
    intro frames
    rw [List.any_map]
    rfl
  rw [hany, hany, h.ids]

end SameShape

/-- New values keep the shape. -/
theorem Revalued.sameShape (h : Revalued fs gs) : SameShape fs gs := h.outlines

theorem moveTo_ids (id : UInt64) (node : Nat) (fs : List Frame) :
    (moveTo id node fs).map Frame.id = fs.map Frame.id := by
  induction fs with
  | nil => rfl
  | cons f below ih =>
      simp only [moveTo]
      split
      · rw [List.map_cons, List.map_cons, ih]
      · split <;> rfl

/-- The other frames keep their order. -/
theorem takeOut?_sublist {id : UInt64} {others : List Frame}
    (h : takeOut? id fs = some (g, others)) : others.Sublist fs := by
  induction fs generalizing g others with
  | nil => cases h
  | cons f below ih =>
      simp only [takeOut?] at h
      split at h
      · next hbelow =>
        cases h
        exact (ih hbelow).cons_cons f
      · split at h
        · cases h
          exact List.sublist_cons_self _ _
        · cases h

/-- The frame `g` is taken out of a stack and leaves the others: with all frames above it, or because
it has the number of the innermost frame. -/
inductive Removed : List Frame → Frame → List Frame → Prop
  | above {fs : List Frame} {g : Frame} {others : List Frame} :
      g :: others <:+ fs → Removed fs g others
  | numbered {f : Frame} {below : List Frame} {g : Frame} {others : List Frame} :
      takeOut? f.id (f :: below) = some (g, others) → Removed (f :: below) g others

theorem Removed.sublist {others : List Frame} (h : Removed fs g others) : others.Sublist fs := by
  cases h with
  | above hsuffix => exact ((List.suffix_cons g others).trans hsuffix).sublist
  | numbered htake => exact takeOut?_sublist htake

/-- If no number is used twice, the innermost frame is the one that is taken out. -/
theorem Removed.suffix {others : List Frame} (h : Removed fs g others)
    (hdistinct : (fs.map Frame.id).Nodup) : g :: others <:+ fs := by
  cases h with
  | above hsuffix => exact hsuffix
  | @numbered f below _ _ htake =>
      have hnot : has below f.id = false := by
        simpa [has] using (List.nodup_cons.1 hdistinct).1
      simp only [takeOut?, takeOut?_eq_none hnot, if_true] at htake
      cases htake
      exact List.suffix_refl _

end Frames

/-- The frame and the node to which a script returns. -/
def Continuation.place (c : Continuation) : UInt64 × Nat :=
  (c.frame, c.node)

/-- What can become of the stack of `p`, where `fs` is the stack after formulas have been
computed. -/
inductive Restacked (story : Story) (p q : Player) : Prop
  /-- Nothing but values changes, or frames are dropped. -/
  | dropped {fs : List Frame} :
      Frames.SameShape p.frames fs → q.frames <:+ fs → q.counter = p.counter →
      Restacked story p q
  /-- A frame becomes the innermost one and moves on behind its node. -/
  | advanced {fs below : List Frame} {f : Frame} {node : Node} :
      Frames.SameShape p.frames fs → f :: below <:+ fs → f.current? story = some node →
      Frames.SameShape (f.advanced :: below) q.frames → q.counter = p.counter →
      Restacked story p q
  /-- A frame ends. -/
  | ended {g : Frame} {others : List Frame} :
      Frames.Removed p.frames g others → Frames.SameShape others q.frames →
      q.counter = p.counter → Restacked story p q
  /-- A script ends and its caller is moved to where it goes on. -/
  | returned {g : Frame} {others after : List Frame} {c : Continuation} :
      Frames.Removed p.frames g others → g.root = true → g.continuation = some c →
      Frames.SameShape others after → q.frames = Frames.moveTo c.frame c.node after →
      q.counter = p.counter → Restacked story p q
  /-- A group is entered from a frame that stays at its node or moves on. -/
  | entered {fs below : List Frame} {f f' : Frame} {node : Node} {group : String}
      {completion : Completion} {found : String × Group} :
      Frames.SameShape p.frames fs → f :: below <:+ fs → f.current? story = some node →
      f' = f ∨ f' = f.advanced → story.group group = .ok found →
      q.frames = { Player.innerFrame group completion with id := p.counter } :: f' :: below →
      q.counter = p.counter + 1 → Restacked story p q
  /-- A script is called from the innermost frame. -/
  | called {f : Frame} {below : List Frame} {node : Node} {group : String} {locals : Locals}
      {refs : Dict String} {found : String × Group} :
      Frames.SameShape p.frames (f :: below) → f.current? story = some node →
      story.group group = .ok found →
      q.frames =
        { Player.rootFrame group locals (some ⟨f.id, f.node + 1, refs⟩) with id := p.counter } ::
          f :: below →
      q.counter = p.counter + 1 → Restacked story p q
  /-- A script takes the place of another one and returns where that one would have. -/
  | replaced {fs below after : List Frame} {root : Frame} {group : String} {locals : Locals}
      {c : Option Continuation} {found : String × Group} :
      Frames.SameShape p.frames fs → root :: below <:+ fs → root.root = true →
      Frames.SameShape below after →
      c.map Continuation.place = root.continuation.map Continuation.place →
      story.group group = .ok found →
      q.frames = { Player.rootFrame group locals c with id := p.counter } :: after →
      q.counter = p.counter + 1 → Restacked story p q

/-! ## Frames that end -/

/-- Going back to a caller that is there moves it; otherwise the story is over. -/
theorem restacked_settle {g : Frame} {others : List Frame} {scope : Dict Value}
    {result : Except Fault Unit} (hremoved : Frames.Removed p.frames g others)
    (hroot : g.root = true)
    (h : Player.settle story scope g.continuation { p with frames := others } = (result, q)) :
    Restacked story p q := by
  -- With nobody to return to, the story is over.
  have hover : Restacked story p (Player.finished { p with frames := others }) :=
    Restacked.dropped (Frames.SameShape.refl _) List.nil_suffix rfl
  unfold Player.settle at h
  cases hc : g.continuation with
  | none =>
      simp only [hc] at h
      cases h
      exact hover
  | some c =>
      by_cases hhas : Frames.has others c.frame = true
      · simp only [hc, hhas, if_true] at h
        -- Writing references back changes nothing but values.
        have hshape := (Frames.revalued_writeBack story scope c.refs others).sameShape
        cases hback : Frames.writeBack story scope c.refs others with
        | mk outcome frames =>
            rw [hback] at h hshape
            cases outcome with
            | ok _ =>
                cases h
                exact Restacked.returned hremoved hroot hc hshape rfl rfl
            | error fault =>
                cases h
                exact Restacked.ended hremoved hshape rfl
      · simp only [hc, hhas] at h
        cases h
        exact hover

/-- The end of a group drops one frame, moves the caller, or ends the story. -/
theorem restacked_finishFrame {f : Frame} {below : List Frame} {result : Except Fault Unit}
    (hp : p.frames = f :: below) (h : p.finishFrame story f.id = (result, q)) :
    Restacked story p q := by
  unfold Player.finishFrame at h
  cases htake : Frames.takeOut? f.id p.frames with
  | none =>
      simp only [htake] at h
      cases h
      exact Restacked.dropped (Frames.SameShape.refl _) (List.suffix_refl _) rfl
  | some taken =>
      rcases taken with ⟨g, others⟩
      have hremoved : Frames.Removed p.frames g others := by
        rw [hp] at htake ⊢
        exact Frames.Removed.numbered htake
      simp only [htake] at h
      by_cases hroot : g.root = true
      · rw [if_pos hroot] at h
        exact restacked_settle hremoved hroot h
      · rw [if_neg hroot] at h
        cases h
        exact Restacked.ended hremoved (Frames.SameShape.refl _) rfl

/-! ## Nodes -/

/-- Formulas leave the shape of the stack. -/
theorem Player.Evaluated.sameShape {frames : List Frame} (heval : p.Evaluated q)
    (hq : q.frames = frames) : Frames.SameShape p.frames frames :=
  hq ▸ heval.frames.sameShape

/-- After formulas have been computed the innermost frame moves on. -/
theorem restacked_advanced {r : Player} {node : Node} {f g : Frame} {below : List Frame}
    (heval : p.Evaluated r) (hat : p.StandsAt story node) (hr : r.frames = f :: below)
    (hq : q.frames = g :: below) (hg : g.outline = f.advanced.outline)
    (hcounter : q.counter = r.counter) : Restacked story p q := by
  refine Restacked.advanced (heval.sameShape hr) (List.suffix_refl _) (heval.current? hat hr) ?_
    (hcounter.trans heval.counter)
  rw [hq]
  exact Frames.SameShape.cons hg (Frames.SameShape.refl below)

/-- After formulas have been computed a group is entered. -/
theorem restacked_entered {r : Player} {node : Node} {f f' : Frame} {below : List Frame}
    {group : String} {completion : Completion} {found : String × Group} (heval : p.Evaluated r)
    (hat : p.StandsAt story node) (hr : r.frames = f :: below) (hf : f' = f ∨ f' = f.advanced)
    (hgroup : story.group group = .ok found)
    (hq : q = Player.push { r with frames := f' :: below } (Player.innerFrame group completion)) :
    Restacked story p q := by
  have hframes : q.frames =
      { Player.innerFrame group completion with id := p.counter } :: f' :: below := by
    simp only [hq, Player.push, heval.counter]
  have hcounter : q.counter = p.counter + 1 := by simp only [hq, Player.push, heval.counter]
  exact Restacked.entered (heval.sameShape hr) (List.suffix_refl _) (heval.current? hat hr) hf
    hgroup hframes hcounter

/-- After formulas have been computed a script is started in place of another one. -/
theorem restacked_replaced {r : Player} {root : Frame} {below after : List Frame} {group : String}
    {locals : Locals} {c : Option Continuation} {found : String × Group} (heval : p.Evaluated r)
    (hsuffix : root :: below <:+ r.frames) (hroot : root.root = true)
    (hafter : Frames.SameShape below after)
    (hplace : c.map Continuation.place = root.continuation.map Continuation.place)
    (hgroup : story.group group = .ok found)
    (hq : q = Player.push { r with frames := after } (Player.rootFrame group locals c)) :
    Restacked story p q := by
  have hframes : q.frames = { Player.rootFrame group locals c with id := p.counter } :: after := by
    simp only [hq, Player.push, heval.counter]
  have hcounter : q.counter = p.counter + 1 := by simp only [hq, Player.push, heval.counter]
  exact Restacked.replaced heval.frames.sameShape hsuffix hroot hafter hplace hgroup hframes
    hcounter

/-- What a node does to the stack is one of the ways of `Restacked`. -/
theorem Move.restacked {node : Node} {out : Option Output} (h : Move story script p node out q)
    (hat : p.StandsAt story node) : Restacked story p q := by
  cases h with
  | textUsed _ hframes =>
      exact restacked_advanced (Player.Evaluated.refl p) hat hframes rfl rfl rfl
  | text _ hrender hframes =>
      have heval := (Act.evaluates_render story _).ok hrender
      exact restacked_advanced heval hat hframes rfl rfl rfl
  | code hexecute hframes =>
      have heval := (Act.evaluates_execute story _).ok hexecute
      exact restacked_advanced heval hat hframes rfl rfl rfl
  | declare hvalue hframes _ _ =>
      exact restacked_advanced hvalue.evaluated hat hframes rfl rfl rfl
  | branchOver hcondition hframes =>
      have heval := (Act.evaluates_condition story _).ok hcondition
      exact restacked_advanced heval hat hframes rfl rfl rfl
  | branchInto hcondition hframes _ hgroup =>
      have heval := (Act.evaluates_condition story _).ok hcondition
      exact restacked_entered heval hat hframes (Or.inr rfl) hgroup rfl
  | loopOver hcondition hframes =>
      have heval := (Act.evaluates_condition story _).ok hcondition
      exact restacked_advanced heval hat hframes rfl rfl rfl
  | @loopInto _ _ _ r _ hcondition hgroup =>
      have heval := (Act.evaluates_condition story _).ok hcondition
      obtain ⟨f, below, hframes⟩ : ∃ f below, r.frames = f :: below := by
        rcases hat with ⟨top, under, htop, -⟩
        rcases heval.top htop with ⟨f, below, hframes, -⟩
        exact ⟨f, below, hframes⟩
      exact restacked_entered heval hat hframes (Or.inl rfl) hgroup (by rw [← hframes])
  | choiceOver hoffered hframes =>
      have heval := (Act.evaluates_offered story _ _).ok hoffered
      exact restacked_advanced heval hat hframes rfl rfl rfl
  | choice hoffered _ hitems hprompt _ =>
      have heval := evaluated_of_choice hoffered hitems hprompt
      exact Restacked.dropped heval.frames.sameShape (List.suffix_refl _) heval.counter
  | @call _ _ _ callee passed locals r f below _ _ hframes _ _ hroot hpassed _ _ =>
      have heval := (Act.evaluates_passArguments story _ _ _ _ _).ok hpassed
      have hpushed : (r.push (Player.rootFrame callee.root locals
          (some ⟨f.id, f.node + 1, passed.refs⟩))).frames =
          { Player.rootFrame callee.root locals (some ⟨f.id, f.node + 1, passed.refs⟩) with
            id := p.counter } :: f :: below := by
        simp only [Player.push, heval.counter, hframes]
      refine Restacked.called (heval.sameShape hframes) (heval.current? hat hframes) hroot hpushed ?_
      simp only [Player.push, heval.counter]
  | tailCall hframes _ _ hroot hpassed his hc _ _ =>
      have heval := (Act.evaluates_passArguments story _ _ _ _ _).ok hpassed
      exact restacked_replaced heval (hframes ▸ List.suffix_refl _) his (Frames.SameShape.refl _)
        (by rw [hc]) hroot rfl
  | leaveScript hroot hsettle =>
      rcases Frames.currentRoot?_suffix hroot with ⟨his, hsuffix⟩
      exact restacked_settle (Frames.Removed.above hsuffix) his hsettle
  | transferAtBottom _ hgroup hvalues _ hroot hc =>
      have heval := (Act.evaluates_transferArguments story _ _ _ _ _).ok hvalues
      rcases Frames.currentRoot?_suffix hroot with ⟨his, hsuffix⟩
      exact restacked_replaced heval hsuffix his (Frames.SameShape.refl _) (by rw [hc]) hgroup rfl
  | transfer _ hgroup hvalues _ hroot hc hover =>
      have heval := (Act.evaluates_transferArguments story _ _ _ _ _).ok hvalues
      rcases Frames.currentRoot?_suffix hroot with ⟨his, hsuffix⟩
      exact restacked_replaced heval hsuffix his hover.revalued.sameShape (by rw [hc]; rfl) hgroup rfl
  | leave hbelow hgroup hloop =>
      rcases exists_of_isLoop hloop with ⟨node, hnode⟩
      exact Restacked.advanced (Frames.SameShape.refl _) (Frames.belowLoop?_suffix hbelow)
        ((nodeAt?_of_group hgroup).trans hnode) (Frames.SameShape.refl _) rfl
  | again hbelow _ _ =>
      exact Restacked.dropped (Frames.SameShape.refl _) (Frames.belowLoop?_suffix hbelow) rfl

/-! ## Steps and answers -/

/-- So is what a step does. -/
theorem Step.restacked {progress : Progress} (h : Step story p progress q) :
    Restacked story p q := by
  cases h with
  | concluded _ =>
      exact Restacked.dropped (Frames.SameShape.refl _) (List.suffix_refl _) rfl
  | groupMissing _ _ =>
      exact Restacked.dropped (Frames.SameShape.refl _) (List.suffix_refl _) rfl
  | finished hframes _ _ hfinish => exact restacked_finishFrame hframes hfinish
  | finishFailed hframes _ _ hfinish => exact restacked_finishFrame hframes hfinish
  | moved hframes hgroup hnode hmove =>
      exact hmove.restacked (standsAt_of_group hframes hgroup hnode)
  | nodeFailed _ _ _ _ =>
      exact Restacked.dropped (Frames.SameShape.refl _) (List.suffix_refl _) rfl

/-- So is what an answer does: it enters a group. -/
theorem Answer.restacked {index : Nat} (h : Answer story p index q) : Restacked story p q := by
  cases h with
  | @mk c item f below found entered option _ _ hframe hgroup hoption hentered =>
      -- An option is found only if the frame stands at a choice.
      obtain ⟨node, hnode⟩ : ∃ node, found.2.nodes[f.node]? = some node := by
        cases hat : found.2.nodes[f.node]? with
        | none => simp [hat, Act.optionFor?] at hoption
        | some node => exact ⟨node, rfl⟩
      exact Restacked.entered (Frames.SameShape.refl _) (Frames.upTo?_suffix hframe)
        ((nodeAt?_of_group hgroup).trans hnode) (Or.inr rfl) hentered rfl rfl

end StoryPlayer
