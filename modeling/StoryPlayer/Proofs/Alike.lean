import StoryPlayer.Proofs.Agree

/-!
# Actions in two states that differ in numbers

- `Player.Alike` relates states that differ in the numbers of their frames only; formulas see the
  same in them,
- the lemmas `agrees_…` say that actions agree in such states that do not look for frames by number.

The second state belongs to the same story with another seed.
-/

namespace StoryPlayer

/-- The states differ in the numbers of frames only.  Since the counters were at `a` and `b`, the
same number of frames was pushed. -/
structure Player.Alike (a b : UInt64) (p q : Player) : Prop where
  frames : p.frames.map Frame.anonymous = q.frames.map Frame.anonymous
  pending : p.pending.map Pending.anonymous = q.pending.map Pending.anonymous
  ended : p.ended = q.ended
  counter : p.counter - a = q.counter - b
  once : p.once = q.once
  generator : p.generator = q.generator

variable {a b : UInt64} {p q : Player}

/-! ## States that are alike -/

namespace Player.Alike

/-- Frames that differ in their numbers may be pushed on states that do. -/
theorem push {f g : Frame} (h : p.Alike a b q) (hfg : f.anonymous = g.anonymous) :
    (p.push f).Alike a b (q.push g) := by
  refine ⟨?_, h.pending, h.ended, ?_, h.once, h.generator⟩
  · have hnew : Frame.anonymous { f with id := p.counter } =
        Frame.anonymous { g with id := q.counter } := hfg
    simp only [Player.push, List.map_cons, hnew, h.frames]
  · have hcounter := h.counter
    simp only [Player.push]
    grind

end Player.Alike

/-- Formulas do not see numbers. -/
theorem similarity_alike : Similarity Frame.anonymous (Player.Alike a b) where
  shows := Frame.anonymous_view
  frames h := h.frames
  once h := h.once
  generator h := h.generator
  evaluated h hframes := ⟨hframes, h.pending, h.ended, h.counter, h.once, rfl⟩

/-- A frame that moves on. -/
theorem advanced_anonymous {f g : Frame} (h : f.anonymous = g.anonymous) :
    f.advanced.anonymous = g.advanced.anonymous :=
  congrArg Frame.advanced h

/-! ## Actions that do not look for frames by number -/

namespace Act

variable {story : Story} {seed : UInt32}

theorem agrees_advance : Agrees (Player.Alike a b) Eq advance advance := by
  refine Agrees.get.bind fun p q hpq => ?_
  cases hp : p.frames with
  | nil =>
      rw [similarity_alike.nil hpq hp]
      exact Agrees.fail _
  | cons f below =>
      rcases similarity_alike.cons hpq hp with ⟨g, under, hq, hhead, htail⟩
      rw [hq]
      refine similarity_alike.setFrames ?_
      have hadvanced := advanced_anonymous hhead
      simp only [List.map_cons, htail]
      exact congrArg (· :: _) hadvanced

/-- The group that is entered gets the next number in both states. -/
theorem agrees_enter (group : String) (completion : Completion) (advanceFirst : Bool) :
    Agrees (Player.Alike a b) Eq (enter story group completion advanceFirst)
      (enter (story.reseed seed) group completion advanceFirst) := by
  refine (Agrees.liftM rfl).bind fun _ _ _ => ?_
  have hpush : Agrees (Player.Alike a b) Eq
      (modify fun p => p.push (Player.innerFrame group completion))
      (modify fun p => p.push (Player.innerFrame group completion)) :=
    Agrees.update fun _ _ hpq => hpq.push rfl
  cases advanceFirst with
  | true => exact agrees_advance.bind fun _ _ _ => hpush
  | false => exact hpush

/-- The choice that waits belongs to the innermost frame of its own state. -/
theorem agrees_offer (script node : String) (prompt : Option String)
    (options : List ChoiceOption) :
    Agrees (Player.Alike a b) Eq (offer story script node prompt options)
      (offer (story.reseed seed) script node prompt options) := by
  refine (similarity_alike.offered script options).bind fun shown _ hshown => ?_
  subst hshown
  split
  · exact agrees_advance.bind fun _ _ _ => Agrees.pure rfl
  · refine (similarity_alike.renderOptions 0 shown).bind fun items _ hitems => ?_
    subst hitems
    refine (similarity_alike.renderOptional prompt).bind fun text _ htext => ?_
    subst htext
    refine similarity_alike.top.bind fun f g _ => ?_
    refine (Agrees.update fun p q hpq => ?_).bind fun _ _ _ => Agrees.pure rfl
    exact ⟨hpq.frames, rfl, hpq.ended, hpq.counter, hpq.once, hpq.generator⟩

/-! ## Nodes inside a script -/

theorem agrees_showText (script id value : String) (once : Bool) :
    Agrees (Player.Alike a b) Eq (showText story script id value once)
      (showText (story.reseed seed) script id value once) := by
  refine Agrees.get.bind fun p q hpq => ?_
  rw [hpq.once]
  split
  · exact agrees_advance.bind fun _ _ _ => Agrees.pure rfl
  · refine (similarity_alike.render value).bind fun text _ htext => ?_
    subst htext
    refine agrees_advance.bind fun _ _ _ => ?_
    cases once with
    | true =>
        refine (Agrees.update fun p q hpq => ?_).bind fun _ _ _ => Agrees.pure rfl
        exact ⟨hpq.frames, hpq.pending, hpq.ended, hpq.counter, by rw [hpq.once], hpq.generator⟩
    | false => exact Agrees.pure rfl

theorem agrees_branch (source yes : String) (no : Option String) :
    Agrees (Player.Alike a b) Eq (branch story source yes no)
      (branch (story.reseed seed) source yes no) := by
  refine (similarity_alike.condition source).bind fun holds _ h => ?_
  subst h
  cases (if holds then some yes else no) with
  | some group => exact agrees_enter group _ true
  | none => exact agrees_advance

theorem agrees_loop (source body : String) :
    Agrees (Player.Alike a b) Eq (loop story source body)
      (loop (story.reseed seed) source body) := by
  refine (similarity_alike.condition source).bind fun holds _ h => ?_
  subst h
  cases holds with
  | true => exact agrees_enter body _ false
  | false => exact agrees_advance

/-- The loop is looked for by why frames were entered, not by their numbers. -/
theorem agrees_backToLoop (keyword : String) :
    Agrees (Player.Alike a b) Eq (backToLoop story keyword)
      (backToLoop (story.reseed seed) keyword) := by
  refine Agrees.get.bind fun p q hpq => ?_
  -- Looking for the body of a loop does not look at the numbers of frames.
  have hbelow : (belowLoop? p.frames).map (List.map Frame.anonymous) =
      (belowLoop? q.frames).map (List.map Frame.anonymous) := by
    rw [← Frames.belowLoop?_anonymous, hpq.frames, Frames.belowLoop?_anonymous]
  cases hp : belowLoop? p.frames with
  | none =>
      rw [hp] at hbelow
      rw [Option.map_eq_none_iff.1 hbelow.symm]
      exact Agrees.fail _
  | some below =>
      rw [hp] at hbelow
      rcases Option.map_eq_some_iff.1 hbelow.symm with ⟨under, hq, hmap⟩
      rw [hq]
      cases below with
      | nil =>
          rw [List.map_eq_nil_iff.1 hmap]
          exact Agrees.fail _
      | cons owner below =>
          cases under with
          | nil => simp at hmap
          | cons owner' under =>
              rcases List.cons.inj hmap with ⟨hhead, htail⟩
              have hmatches := Frame.matches_of_anonymous hhead.symm
              simp only [hmatches.group, hmatches.node]
              refine (Agrees.liftM rfl).bind fun found _ hfound => ?_
              subst hfound
              split
              · refine similarity_alike.setFrames ?_
                simp only [List.map_cons, hhead, htail]
              · exact Agrees.fail _

/-! ## Calls -/

/-- The continuations may name callers of different numbers. -/
theorem agrees_pushRoot {group : String} {locals : Locals} {c d : Option Continuation}
    (h : c.map Continuation.anonymous = d.map Continuation.anonymous) :
    Agrees (Player.Alike a b) Eq (pushRoot group locals c) (pushRoot group locals d) := by
  refine Agrees.update fun p q hpq => hpq.push ?_
  unfold Frame.anonymous Player.rootFrame
  simp only [h]

theorem agrees_passArgument (script : String) (param : Param) (argument : Argument)
    (passed : Passed) :
    Agrees (Player.Alike a b) Eq (passArgument story script param argument passed)
      (passArgument (story.reseed seed) script param argument passed) := by
  unfold passArgument
  split
  · exact Agrees.fail _
  · split
    · refine Agrees.get.bind fun p q hpq => ?_
      have hread : Frames.readRef story p.frames argument.source =
          Frames.readRef story q.frames argument.source := by
        rw [← Frames.readRef_anonymous, hpq.frames, Frames.readRef_anonymous]
      refine (Agrees.liftM hread).bind fun value _ h => ?_
      subst h
      exact Agrees.pure rfl
    · refine (similarity_alike.evaluate _).bind fun value _ h => ?_
      subst h
      exact Agrees.pure rfl

/-- Arguments are passed alike, one after the other. -/
theorem agrees_passArguments (script : String) (excess : Fault) (params : List Param)
    (arguments : List Argument) (passed : Passed) :
    Agrees (Player.Alike a b) Eq (passArguments story script excess params arguments passed)
      (passArguments (story.reseed seed) script excess params arguments passed) := by
  induction arguments generalizing params passed with
  | nil =>
      rw [passArguments, passArguments]
      exact Agrees.pure rfl
  | cons argument rest ih =>
      cases params with
      | nil => exact Agrees.fail excess
      | cons param params =>
          refine (agrees_passArgument script param argument passed).bind fun passed' _ h => ?_
          subst h
          exact ih params passed'

theorem agrees_transferArguments (script : String) (excess : Fault) (params : List Param)
    (arguments : List Argument) (values : Dict Value) :
    Agrees (Player.Alike a b) Eq (transferArguments story script excess params arguments values)
      (transferArguments (story.reseed seed) script excess params arguments values) := by
  -- Parameters and arguments are used up together.
  induction arguments generalizing params values with
  | nil =>
      rw [transferArguments, transferArguments]
      exact Agrees.pure rfl
  | cons argument rest ih =>
      cases params with
      | nil => exact Agrees.fail excess
      | cons param params =>
          have hfirst : Agrees (Player.Alike a b) Eq
              (transferArgument story script param argument values)
              (transferArgument (story.reseed seed) script param argument values) := by
            unfold transferArgument
            split
            · exact Agrees.fail _
            · refine (similarity_alike.evaluate _).bind fun value _ h => ?_
              subst h
              exact Agrees.pure rfl
          refine hfirst.bind fun values' _ h => ?_
          subst h
          exact ih params values'

/-- The script that is called returns to the frame of its own state. -/
theorem agrees_call (target : String) (arguments : List Argument) :
    Agrees (Player.Alike a b) Eq (call story target arguments)
      (call (story.reseed seed) target arguments) := by
  refine similarity_alike.top.bind fun f g hfg => ?_
  have hmatches := Frame.matches_of_anonymous hfg
  -- Whether there is a caller does not depend on its number.
  have htail : ∀ size, isTailCall f size = isTailCall g size := by
    intro size
    have hsome : f.continuation.isSome = g.continuation.isSome := by
      simpa using congrArg Option.isSome hmatches.continuation
    simp only [isTailCall, hmatches.root, hmatches.node, hsome]
  rw [hmatches.group]
  refine (Agrees.liftM rfl).bind fun found _ h => ?_
  subst h
  have hscripts : (story.reseed seed).scripts = story.scripts := rfl
  simp only [hscripts]
  cases Dict.get? story.scripts target with
  | none => exact Agrees.fail _
  | some script =>
      refine (Agrees.liftM rfl).bind fun _ _ _ => ?_
      refine (agrees_passArguments target _ _ _ _).bind fun passed _ h => ?_
      subst h
      simp only [htail]
      split
      · exact fun p q _ => Agree.error _
      · refine (Agrees.liftM rfl).bind fun locals _ h => ?_
        subst h
        split
        · refine Agrees.get.bind fun p q hpq => ?_
          have hdrop : (p.frames.drop 1).map Frame.anonymous =
              (q.frames.drop 1).map Frame.anonymous := by
            rw [List.map_drop, List.map_drop, hpq.frames]
          exact (similarity_alike.setFrames hdrop).bind fun _ _ _ =>
            agrees_pushRoot hmatches.continuation
        · refine agrees_pushRoot ?_
          simp [Continuation.anonymous, hmatches.node]

/-- The running script is the same, up to the numbers of its frames. -/
theorem agrees_currentRoot :
    Agrees (Player.Alike a b) (fun x y => x.1.anonymous = y.1.anonymous ∧
      x.2.map Frame.anonymous = y.2.map Frame.anonymous) currentRoot currentRoot := by
  refine Agrees.get.bind fun p q hpq => ?_
  have hroot := Frames.currentRoot?_anonymous p.frames
  rw [hpq.frames, Frames.currentRoot?_anonymous] at hroot
  cases hp : Frames.currentRoot? p.frames with
  | none =>
      rw [hp] at hroot
      rw [Option.map_eq_none_iff.1 hroot]
      exact Agrees.fail _
  | some found =>
      rw [hp] at hroot
      rcases Option.map_eq_some_iff.1 hroot with ⟨found', hq, hfound⟩
      rw [hq]
      rcases Prod.mk.inj hfound with ⟨hhead, htail⟩
      exact Agrees.pure ⟨hhead.symm, htail.symm⟩

end Act

end StoryPlayer
