import StoryPlayer.Proofs.Effect

/-!
# What a node does

The relation `Move` lists everything that running a node to its end can lead to, one rule for each
outcome of each kind of node, with all the conditions under which it happens.

- `move_of_runNode` shows that there is nothing else,
- `Frames.HandedOver` and `Player.settle` say what becomes of a caller whose script goes away.

Proofs about all nodes go by cases on `Move`.
-/

namespace StoryPlayer

/-! ## Handing over -/

/-- The frames below a script that goes away, after what was passed by reference has been handed
over to them. -/
def Frames.HandedOver (story : Story) (scope : Dict Value) (c : Continuation)
    (below after : List Frame) : Prop :=
  if has below c.frame then writeBack story scope c.refs below = (.ok (), after) else after = below

/-- Handing over gives variables new values. -/
theorem Frames.HandedOver.revalued {story : Story} {scope : Dict Value} {c : Continuation}
    {below after : List Frame} (h : HandedOver story scope c below after) :
    Revalued below after := by
  unfold HandedOver at h
  split at h
  · have hback := revalued_writeBack story scope c.refs below
    rwa [h] at hback
  · rw [h]
    exact Revalued.refl below

/-! ## Moves -/

/-- A declared variable starts with a value, which takes the state `p` to `q`. -/
def FirstValue (story : Story) (d : Declaration) (p : Player) (value : Value) (q : Player) : Prop :=
  match d.initial with
  | some source => Act.evaluate story source p = .ok (value, q)
  | none => value = .default d.type ∧ q = p

/-- Finding a first value computes at most one formula. -/
theorem FirstValue.evaluated {story : Story} {d : Declaration} {p q : Player} {value : Value}
    (h : FirstValue story d p value q) : p.Evaluated q := by
  unfold FirstValue at h
  split at h
  · exact (Act.evaluates_evaluate story _).ok h
  · rw [h.2]
    exact Player.Evaluated.refl p

/-- Running a node of a script to its end takes the state `p` to another state, and may show
something. -/
inductive Move (story : Story) (script : String) (p : Player) :
    Node → Option Output → Player → Prop
  /-- A text that was shown before is passed over. -/
  | textUsed {id value : String} {f : Frame} {below : List Frame} :
      p.once.fired script (Once.textKey id) = true → p.frames = f :: below →
      Move story script p (.text id value true) none { p with frames := f.advanced :: below }
  | text {id value shown : String} {once : Bool} {q : Player} {f : Frame} {below : List Frame} :
      (once && p.once.fired script (Once.textKey id)) = false →
      Act.render story value p = .ok (shown, q) → q.frames = f :: below →
      Move story script p (.text id value once) (some (.text shown))
        { q with
          frames := f.advanced :: below
          once := if once then q.once.mark script (Once.textKey id) else q.once }
  | code {id source : String} {q : Player} {f : Frame} {below : List Frame} :
      Act.execute story source p = .ok ((), q) → q.frames = f :: below →
      Move story script p (.code id source) none { q with frames := f.advanced :: below }
  | declare {id : String} {d : Declaration} {value : Value} {q : Player} {f : Frame}
      {below : List Frame} :
      FirstValue story d p value q → q.frames = f :: below →
      Dict.contains f.scope d.name = false → Value.fits d.type value = true →
      Move story script p (.declare id d) none
        { q with frames := Frame.advanced { f with
            scope := Dict.insert f.scope d.name value
            types := Dict.insert f.types d.name d.type } :: below }
  /-- A condition fails and there is no other branch. -/
  | branchOver {id source yes : String} {q : Player} {f : Frame} {below : List Frame} :
      Act.condition story source p = .ok (false, q) → q.frames = f :: below →
      Move story script p (.branch id source yes none) none
        { q with frames := f.advanced :: below }
  | branchInto {id source yes group : String} {no : Option String} {holds : Bool} {q : Player}
      {f : Frame} {below : List Frame} {found : String × Group} :
      Act.condition story source p = .ok (holds, q) → q.frames = f :: below →
      (if holds then some yes else no) = some group → story.group group = .ok found →
      Move story script p (.branch id source yes no) none
        (Player.push { q with frames := f.advanced :: below }
          (Player.innerFrame group .resumeAfterChild))
  | loopOver {id source body : String} {q : Player} {f : Frame} {below : List Frame} :
      Act.condition story source p = .ok (false, q) → q.frames = f :: below →
      Move story script p (.loop id source body) none { q with frames := f.advanced :: below }
  | loopInto {id source body : String} {q : Player} {found : String × Group} :
      Act.condition story source p = .ok (true, q) → story.group body = .ok found →
      Move story script p (.loop id source body) none
        (q.push (Player.innerFrame body .whileBody))
  /-- A choice that offers nothing is passed over. -/
  | choiceOver {id : String} {prompt : Option String} {options : List ChoiceOption} {q : Player}
      {f : Frame} {below : List Frame} :
      Act.offered story script options p = .ok ([], q) → q.frames = f :: below →
      Move story script p (.choice id prompt options) none
        { q with frames := f.advanced :: below }
  | choice {id : String} {prompt shownPrompt : Option String} {options shown : List ChoiceOption}
      {items : List ChoiceItem} {q r s : Player} {f : Frame} {below : List Frame} :
      Act.offered story script options p = .ok (shown, q) → shown ≠ [] →
      Act.renderOptions story 0 shown q = .ok (items, r) →
      Act.renderOptional story prompt r = .ok (shownPrompt, s) → s.frames = f :: below →
      Move story script p (.choice id prompt options) (some (.choices items shownPrompt))
        { s with pending := some ⟨f.id, id, items, shownPrompt⟩ }
  | call {id target : String} {arguments : List Argument} {callee : Script} {passed : Act.Passed}
      {locals : Locals} {q : Player} {f : Frame} {below : List Frame}
      {caller root : String × Group} :
      q.frames = f :: below → story.group f.group = .ok caller →
      Dict.get? story.scripts target = some callee → story.group callee.root = .ok root →
      Act.passArguments story target
        (.callArguments target arguments.length callee.params.length) callee.params arguments
        ⟨[], []⟩ p = .ok (passed, q) →
      Act.isTailCall f caller.2.nodes.length = false →
      story.locals target passed.values = .ok locals →
      Move story script p (.call id target arguments) none
        (q.push (Player.rootFrame callee.root locals (some ⟨f.id, f.node + 1, passed.refs⟩)))
  | tailCall {id target : String} {arguments : List Argument} {callee : Script}
      {values : Dict Value} {locals : Locals} {c : Continuation} {q : Player} {f : Frame}
      {below : List Frame} {caller root : String × Group} :
      q.frames = f :: below → story.group f.group = .ok caller →
      Dict.get? story.scripts target = some callee → story.group callee.root = .ok root →
      Act.passArguments story target
        (.callArguments target arguments.length callee.params.length) callee.params arguments
        ⟨[], []⟩ p = .ok (⟨values, []⟩, q) →
      f.root = true → f.continuation = some c → f.node + 1 = caller.2.nodes.length →
      story.locals target values = .ok locals →
      Move story script p (.call id target arguments) none
        (Player.push { q with frames := below } (Player.rootFrame callee.root locals (some c)))
  | leaveScript {id : String} {arguments : List Argument} {root : Frame} {below : List Frame}
      {q : Player} :
      Frames.currentRoot? p.frames = some (root, below) →
      Player.settle story root.scope root.continuation { p with frames := below } = (.ok (), q) →
      Move story script p (.finish id none arguments) none q
  /-- The script that is played from the start is replaced. -/
  | transferAtBottom {id target : String} {arguments : List Argument} {callee : Script}
      {values : Dict Value} {locals : Locals} {q : Player} {root : Frame} {below : List Frame}
      {found : String × Group} :
      Dict.get? story.scripts target = some callee → story.group callee.root = .ok found →
      Act.transferArguments story target
        (.returnArguments target arguments.length callee.params.length) callee.params arguments
        [] p = .ok (values, q) →
      story.locals target values = .ok locals →
      Frames.currentRoot? q.frames = some (root, below) → root.continuation = none →
      Move story script p (.finish id (some target) arguments) none
        (Player.push { q with frames := below } (Player.rootFrame callee.root locals none))
  /-- A script that was called is replaced; what was passed to it by reference is handed over. -/
  | transfer {id target : String} {arguments : List Argument} {callee : Script}
      {values : Dict Value} {locals : Locals} {c : Continuation} {q : Player} {root : Frame}
      {below after : List Frame} {found : String × Group} :
      Dict.get? story.scripts target = some callee → story.group callee.root = .ok found →
      Act.transferArguments story target
        (.returnArguments target arguments.length callee.params.length) callee.params arguments
        [] p = .ok (values, q) →
      story.locals target values = .ok locals →
      Frames.currentRoot? q.frames = some (root, below) → root.continuation = some c →
      Frames.HandedOver story root.scope c below after →
      Move story script p (.finish id (some target) arguments) none
        (Player.push { q with frames := after }
          (Player.rootFrame callee.root locals (some { c with refs := [] })))
  | leave {id : String} {owner : Frame} {below : List Frame} {found : String × Group} :
      Act.belowLoop? p.frames = some (owner :: below) → story.group owner.group = .ok found →
      Act.isLoop found.2.nodes[owner.node]? = true →
      Move story script p (.leave id) none { p with frames := owner.advanced :: below }
  | again {id : String} {owner : Frame} {below : List Frame} {found : String × Group} :
      Act.belowLoop? p.frames = some (owner :: below) → story.group owner.group = .ok found →
      Act.isLoop found.2.nodes[owner.node]? = true →
      Move story script p (.again id) none { p with frames := owner :: below }

/-- A choice opens once its options, their texts and the prompt have been computed. -/
theorem evaluated_of_choice {story : Story} {script : String} {prompt shownPrompt : Option String}
    {options shown : List ChoiceOption} {items : List ChoiceItem} {p q r s : Player}
    (hoffered : Act.offered story script options p = .ok (shown, q))
    (hitems : Act.renderOptions story 0 shown q = .ok (items, r))
    (hprompt : Act.renderOptional story prompt r = .ok (shownPrompt, s)) : p.Evaluated s := by
  have hfirst := (Act.evaluates_offered story _ _).ok hoffered
  have hsecond := (Act.evaluates_renderOptions story _ _).ok hitems
  have hthird := (Act.evaluates_renderOptional story _).ok hprompt
  exact (hfirst.trans hsecond).trans hthird

/-! ## There are no other moves -/

namespace Act

section Parts

variable {story : Story} {p q : Player}

theorem setFrames_eq_ok {frames : List Frame} {y : Unit} :
    setFrames frames p = .ok (y, q) ↔ q = { p with frames } :=
  modify_eq_ok

theorem pushRoot_eq_ok {group : String} {locals : Locals} {c : Option Continuation} {y : Unit} :
    pushRoot group locals c p = .ok (y, q) ↔ q = p.push (Player.rootFrame group locals c) :=
  modify_eq_ok

/-- A group that is entered with the cursor moved on. -/
theorem enter_onward_eq_ok {group : String} {completion : Completion} {y : Unit}
    (h : enter story group completion true p = .ok (y, q)) :
    ∃ found f below, story.group group = .ok found ∧ p.frames = f :: below ∧
      q = Player.push { p with frames := f.advanced :: below }
        (Player.innerFrame group completion) := by
  rcases bind_eq_ok.1 h with ⟨found, _, hlift, hrest⟩
  rcases liftM_eq_ok.1 hlift with ⟨hfound, rfl⟩
  rcases bind_eq_ok.1 hrest with ⟨_, _, hadvance, hpush⟩
  rcases advance_eq_ok.1 hadvance with ⟨f, below, hframes, rfl⟩
  exact ⟨found, f, below, hfound, hframes, modify_eq_ok.1 hpush⟩

/-- A group that is entered with the cursor left where it is. -/
theorem enter_staying_eq_ok {group : String} {completion : Completion} {y : Unit}
    (h : enter story group completion false p = .ok (y, q)) :
    ∃ found, story.group group = .ok found ∧ q = p.push (Player.innerFrame group completion) := by
  rcases bind_eq_ok.1 h with ⟨found, _, hlift, hrest⟩
  rcases liftM_eq_ok.1 hlift with ⟨hfound, rfl⟩
  exact ⟨found, hfound, modify_eq_ok.1 hrest⟩

theorem currentRoot_eq_ok {found : Frame × List Frame} :
    currentRoot p = .ok (found, q) ↔ Frames.currentRoot? p.frames = some found ∧ p = q := by
  simp only [currentRoot, bind_eq_ok, get_eq_ok]
  constructor
  · rintro ⟨_, _, ⟨rfl, rfl⟩, h⟩
    cases hroot : Frames.currentRoot? p.frames with
    | none =>
        rw [hroot] at h
        exact (fail_eq_ok.1 h).elim
    | some found =>
        rw [hroot] at h
        rcases pure_eq_ok.1 h with ⟨rfl, rfl⟩
        exact ⟨rfl, rfl⟩
  · rintro ⟨hroot, rfl⟩
    refine ⟨_, _, ⟨rfl, rfl⟩, ?_⟩
    simp only [hroot]
    exact pure_eq_ok.2 ⟨rfl, rfl⟩

theorem settle_eq_ok {scope : Dict Value} {c : Option Continuation} {y : Unit}
    (h : settle story scope c p = .ok (y, q)) :
    Player.settle story scope c p = (.ok (), q) := by
  unfold settle at h
  split at h
  · next hsettle =>
    cases h
    exact hsettle
  · cases h

/-- References are handed over before a script takes over, if the caller is still there. -/
theorem handOver_eq_ok {scope : Dict Value} {c : Continuation} {y : Unit}
    (h : handOver story scope c p = .ok (y, q)) :
    ∃ after, Frames.HandedOver story scope c p.frames after ∧ q = { p with frames := after } := by
  rcases bind_eq_ok.1 h with ⟨_, _, hget, hrest⟩
  rcases get_eq_ok.1 hget with ⟨rfl, rfl⟩
  unfold Frames.HandedOver
  by_cases hhas : Frames.has p.frames c.frame = true
  · simp only [hhas, if_true] at hrest ⊢
    cases hback : Frames.writeBack story scope c.refs p.frames with
    | mk result after =>
        rw [hback] at hrest
        cases result with
        | error fault =>
            rcases bind_eq_ok.1 hrest with ⟨_, _, -, hfail⟩
            exact (fail_eq_ok.1 hfail).elim
        | ok _ => exact ⟨after, rfl, setFrames_eq_ok.1 hrest⟩
  · rw [if_neg hhas] at hrest
    rcases pure_eq_ok.1 hrest with ⟨-, rfl⟩
    exact ⟨_, by rw [if_neg hhas], rfl⟩

/-- Going back to a loop succeeds exactly if there is one, whose frame becomes the innermost. -/
theorem backToLoop_eq_ok {keyword : String} {y : Unit}
    (h : backToLoop story keyword p = .ok (y, q)) :
    ∃ owner below found, belowLoop? p.frames = some (owner :: below) ∧
      story.group owner.group = .ok found ∧ isLoop found.2.nodes[owner.node]? = true ∧
      q = { p with frames := owner :: below } := by
  rcases bind_eq_ok.1 h with ⟨_, _, hget, hrest⟩
  rcases get_eq_ok.1 hget with ⟨rfl, rfl⟩
  cases hbelow : belowLoop? p.frames with
  | none =>
      rw [hbelow] at hrest
      exact (fail_eq_ok.1 hrest).elim
  | some frames =>
      rw [hbelow] at hrest
      cases frames with
      | nil => exact (fail_eq_ok.1 hrest).elim
      | cons owner below =>
          rcases bind_eq_ok.1 hrest with ⟨⟨script, group⟩, _, hlift, hloop⟩
          rcases liftM_eq_ok.1 hlift with ⟨hfound, rfl⟩
          by_cases his : isLoop group.nodes[owner.node]? = true
          · simp only [his, if_true] at hloop
            exact ⟨owner, below, _, rfl, hfound, his, setFrames_eq_ok.1 hloop⟩
          · simp only [his] at hloop
            exact (fail_eq_ok.1 hloop).elim

end Parts
end Act

section Nodes

variable {story : Story} {script : String} {p q : Player}

open Act

/-- A text is a move: it is passed over, or shown and marked. -/
theorem move_of_showText {id value : String} {once : Bool} {out : Option Output}
    (h : showText story script id value once p = .ok (out, q)) :
    Move story script p (.text id value once) out q := by
  rcases bind_eq_ok.1 h with ⟨_, _, hget, hrest⟩
  rcases get_eq_ok.1 hget with ⟨rfl, rfl⟩
  -- A text that has been shown is passed over.
  by_cases hused : (once && p.once.fired script (Once.textKey id)) = true
  · rw [if_pos hused] at hrest
    rcases bind_eq_ok.1 hrest with ⟨_, _, hadvance, hreturn⟩
    rcases advance_eq_ok.1 hadvance with ⟨f, below, hframes, rfl⟩
    rcases pure_eq_ok.1 hreturn with ⟨rfl, rfl⟩
    rcases Bool.and_eq_true_iff.1 hused with ⟨rfl, hfired⟩
    exact Move.textUsed hfired hframes
  · rw [if_neg hused] at hrest
    rcases bind_eq_ok.1 hrest with ⟨shown, r, hrender, hrest⟩
    rcases bind_eq_ok.1 hrest with ⟨_, _, hadvance, hrest⟩
    rcases advance_eq_ok.1 hadvance with ⟨f, below, hframes, rfl⟩
    have hfresh : (once && p.once.fired script (Once.textKey id)) = false := by simpa using hused
    cases once with
    | true =>
        rcases bind_eq_ok.1 hrest with ⟨_, _, hmark, hreturn⟩
        rcases modify_eq_ok.1 hmark with rfl
        rcases pure_eq_ok.1 hreturn with ⟨rfl, rfl⟩
        exact Move.text (q := r) hfresh hrender hframes
    | false =>
        rcases pure_eq_ok.1 hrest with ⟨rfl, rfl⟩
        exact Move.text (q := r) hfresh hrender hframes

/-- What a declaration does once the first value is there. -/
theorem declareAs_eq_ok {d : Declaration} {value : Value} {y : Unit}
    (h : declareAs d value p = .ok (y, q)) :
    Value.fits d.type value = true ∧ ∃ f below, p.frames = f :: below ∧
      q = { p with frames := { f with
              scope := Dict.insert f.scope d.name value
              types := Dict.insert f.types d.name d.type } :: below } := by
  unfold declareAs at h
  by_cases hfits : Value.fits d.type value = true
  · rw [if_pos hfits] at h
    rcases bind_eq_ok.1 h with ⟨_, _, hget, hrest⟩
    rcases get_eq_ok.1 hget with ⟨rfl, rfl⟩
    cases hframes : p.frames with
    | nil =>
        rw [hframes] at hrest
        exact (fail_eq_ok.1 hrest).elim
    | cons f below =>
        rw [hframes] at hrest
        exact ⟨hfits, f, below, rfl, setFrames_eq_ok.1 hrest⟩
  · rw [if_neg hfits] at h
    exact (fail_eq_ok.1 h).elim

theorem firstValue_eq_ok {d : Declaration} {value : Value}
    (h : firstValue story d p = .ok (value, q)) : FirstValue story d p value q := by
  unfold firstValue at h
  unfold FirstValue
  cases hinitial : d.initial with
  | none =>
      rw [hinitial] at h
      rcases pure_eq_ok.1 h with ⟨rfl, rfl⟩
      exact ⟨rfl, rfl⟩
  | some source =>
      rw [hinitial] at h
      exact rewording_eq_ok.1 h

/-- A declaration succeeds with a value of the type, for a name that the frame does not have. -/
theorem declare_eq_ok {d : Declaration} {y : Unit} (h : declare story d p = .ok (y, q)) :
    ∃ value r f below, FirstValue story d p value r ∧ r.frames = f :: below ∧
      Dict.contains f.scope d.name = false ∧ Value.fits d.type value = true ∧
      q = { r with frames := { f with
              scope := Dict.insert f.scope d.name value
              types := Dict.insert f.types d.name d.type } :: below } := by
  rcases bind_eq_ok.1 h with ⟨g, _, htop, hrest⟩
  rcases top_eq_ok.1 htop with ⟨⟨under, hp⟩, rfl⟩
  -- That the name is new is tested before the first value is computed, which declares nothing.
  by_cases hname : Dict.contains g.scope d.name = true
  · rw [if_pos hname] at hrest
    exact (fail_eq_ok.1 hrest).elim
  · rw [if_neg hname] at hrest
    rcases bind_eq_ok.1 hrest with ⟨value, r, hfirst, hdeclared⟩
    have hvalue := firstValue_eq_ok hfirst
    rcases declareAs_eq_ok hdeclared with ⟨hfits, f, below, hr, hq⟩
    -- The frame that declares the variable is the one whose names were looked at.
    rcases hvalue.evaluated.cons hr with ⟨g', _, hp', hrevalued, -⟩
    rw [hp] at hp'
    cases hp'
    refine ⟨value, r, f, below, hvalue, hr, ?_, hfits, hq⟩
    rw [hrevalued.names]
    simpa using hname

/-- A branch is a move into one of two groups, or past the node. -/
theorem move_of_branch {id source yes : String} {no : Option String} {y : Unit}
    (h : branch story source yes no p = .ok (y, q)) :
    Move story script p (.branch id source yes no) none q := by
  rcases bind_eq_ok.1 h with ⟨holds, r, hcondition, hrest⟩
  cases htarget : (if holds then some yes else no) with
  | none =>
      simp only [htarget] at hrest
      rcases advance_eq_ok.1 hrest with ⟨f, below, hframes, rfl⟩
      cases holds with
      | true => cases htarget
      | false =>
          obtain rfl : no = none := htarget
          exact Move.branchOver hcondition hframes
  | some group =>
      simp only [htarget] at hrest
      rcases enter_onward_eq_ok hrest with ⟨found, f, below, hfound, hframes, rfl⟩
      exact Move.branchInto hcondition hframes htarget hfound

/-- A loop is a move into its body, at which the frame stays, or past the node. -/
theorem move_of_loop {id source body : String} {y : Unit}
    (h : loop story source body p = .ok (y, q)) :
    Move story script p (.loop id source body) none q := by
  rcases bind_eq_ok.1 h with ⟨holds, r, hcondition, hrest⟩
  cases holds with
  | true =>
      rcases enter_staying_eq_ok hrest with ⟨found, hfound, rfl⟩
      exact Move.loopInto hcondition hfound
  | false =>
      rcases advance_eq_ok.1 hrest with ⟨f, below, hframes, rfl⟩
      exact Move.loopOver hcondition hframes

/-- A choice is a move: it waits, or is passed over if it offers nothing. -/
theorem move_of_offer {id : String} {prompt : Option String} {options : List ChoiceOption}
    {out : Option Output} (h : offer story script id prompt options p = .ok (out, q)) :
    Move story script p (.choice id prompt options) out q := by
  rcases bind_eq_ok.1 h with ⟨shown, r, hoffered, hrest⟩
  cases shown with
  | nil =>
      rcases bind_eq_ok.1 hrest with ⟨_, _, hadvance, hreturn⟩
      rcases advance_eq_ok.1 hadvance with ⟨f, below, hframes, rfl⟩
      rcases pure_eq_ok.1 hreturn with ⟨rfl, rfl⟩
      exact Move.choiceOver hoffered hframes
  | cons option others =>
      rcases bind_eq_ok.1 hrest with ⟨items, s, hitems, hrest⟩
      rcases bind_eq_ok.1 hrest with ⟨shownPrompt, t, hprompt, hrest⟩
      rcases bind_eq_ok.1 hrest with ⟨f, _, htop, hrest⟩
      rcases top_eq_ok.1 htop with ⟨⟨below, hframes⟩, rfl⟩
      rcases bind_eq_ok.1 hrest with ⟨_, _, hmodify, hreturn⟩
      rcases modify_eq_ok.1 hmodify with rfl
      rcases pure_eq_ok.1 hreturn with ⟨rfl, rfl⟩
      exact Move.choice hoffered (List.cons_ne_nil _ _) hitems hprompt hframes

/-- A tail call stands last in the frame of a script that has a caller. -/
theorem isTailCall_eq_true {caller : Frame} {size : Nat} :
    isTailCall caller size = true ↔
      caller.root = true ∧ (∃ c, caller.continuation = some c) ∧ caller.node + 1 = size := by
  simp [isTailCall, Option.isSome_iff_exists, and_assoc]

/-- New values of variables do not make a call a tail call. -/
theorem isTailCall_congr {f g : Frame} (h : f.Revalued g) (size : Nat) :
    isTailCall g size = isTailCall f size := by
  rw [h.same]
  rfl

/-- A call is a move: of the tail, or with a frame to return to. -/
theorem move_of_call {id target : String} {arguments : List Argument} {y : Unit}
    (h : call story target arguments p = .ok (y, q)) :
    Move story script p (.call id target arguments) none q := by
  rcases bind_eq_ok.1 h with ⟨caller, _, htop, hrest⟩
  rcases top_eq_ok.1 htop with ⟨⟨under, hp⟩, rfl⟩
  rcases bind_eq_ok.1 hrest with ⟨⟨owner, group⟩, _, hlift, hrest⟩
  rcases liftM_eq_ok.1 hlift with ⟨hgroup, rfl⟩
  cases hcallee : Dict.get? story.scripts target with
  | none =>
      simp only [hcallee] at hrest
      exact (fail_eq_ok.1 hrest).elim
  | some callee =>
      simp only [hcallee] at hrest
      rcases bind_eq_ok.1 hrest with ⟨root, _, hlift, hrest⟩
      rcases liftM_eq_ok.1 hlift with ⟨hroot, rfl⟩
      rcases bind_eq_ok.1 hrest with ⟨passed, r, hpassed, hrest⟩
      -- The caller is still on top after the arguments; only values have changed.
      have heval := (evaluates_passArguments story target _ _ _ _).ok hpassed
      rcases heval.top hp with ⟨f, below, hframes, hf⟩
      have hgroup' : story.group f.group = .ok (owner, group) := by rw [hf.same]; exact hgroup
      have htail := isTailCall_congr hf group.nodes.length
      by_cases hrefs : (isTailCall caller group.nodes.length && !passed.refs.isEmpty) = true
      · simp only [hrefs, if_true] at hrest
        rcases bind_eq_ok.1 hrest with ⟨_, _, hfail, -⟩
        exact (fail_eq_ok.1 hfail).elim
      · simp only [hrefs] at hrest
        rcases bind_eq_ok.1 hrest with ⟨locals, _, hlift, hrest⟩
        rcases liftM_eq_ok.1 hlift with ⟨hlocals, rfl⟩
        by_cases his : isTailCall caller group.nodes.length = true
        · -- The caller is dropped and its continuation handed on; nothing was passed by reference.
          rw [if_pos his] at hrest
          rcases bind_eq_ok.1 hrest with ⟨_, _, hget, hrest⟩
          rcases get_eq_ok.1 hget with ⟨rfl, rfl⟩
          rcases bind_eq_ok.1 hrest with ⟨_, _, hset, hpush⟩
          rcases setFrames_eq_ok.1 hset with rfl
          rcases pushRoot_eq_ok.1 hpush with rfl
          rcases passed with ⟨values, refs⟩
          obtain rfl : refs = [] := by simpa [his] using hrefs
          rcases isTailCall_eq_true.1 (htail.trans his) with ⟨hisRoot, ⟨c, hc⟩, hlast⟩
          have hcaller : caller.continuation = some c := by rw [← hc, hf.same]
          simp only [hcaller, hframes, List.drop_one, List.tail_cons]
          exact Move.tailCall hframes hgroup' hcallee hroot hpassed hisRoot hc hlast hlocals
        · rw [if_neg his] at hrest
          rcases pushRoot_eq_ok.1 hrest with rfl
          have hid : caller.id = f.id := by rw [hf.same]
          have hnode : caller.node = f.node := by rw [hf.same]
          rw [hid, hnode]
          exact Move.call hframes hgroup' hcallee hroot hpassed (by simpa [htail] using his) hlocals

/-- A return without a target is a move out of the running script. -/
theorem move_of_leaveScript {id : String} {arguments : List Argument} {y : Unit}
    (h : leaveScript story p = .ok (y, q)) :
    Move story script p (.finish id none arguments) none q := by
  rcases bind_eq_ok.1 h with ⟨⟨root, below⟩, _, hcurrent, hrest⟩
  rcases currentRoot_eq_ok.1 hcurrent with ⟨hroot, rfl⟩
  rcases bind_eq_ok.1 hrest with ⟨_, _, hset, hsettle⟩
  rcases setFrames_eq_ok.1 hset with rfl
  exact Move.leaveScript hroot (settle_eq_ok hsettle)

/-- A return with a target is a move into another script with the same caller. -/
theorem move_of_transfer {id target : String} {arguments : List Argument} {y : Unit}
    (h : transfer story target arguments p = .ok (y, q)) :
    Move story script p (.finish id (some target) arguments) none q := by
  rcases bind_eq_ok.1 h with ⟨_, _, hcurrent, hrest⟩
  rcases currentRoot_eq_ok.1 hcurrent with ⟨-, rfl⟩
  cases hcallee : Dict.get? story.scripts target with
  | none =>
      simp only [hcallee] at hrest
      exact (fail_eq_ok.1 hrest).elim
  | some callee =>
      simp only [hcallee] at hrest
      rcases bind_eq_ok.1 hrest with ⟨found, _, hlift, hrest⟩
      rcases liftM_eq_ok.1 hlift with ⟨hfound, rfl⟩
      rcases bind_eq_ok.1 hrest with ⟨values, r, hvalues, hrest⟩
      rcases bind_eq_ok.1 hrest with ⟨locals, _, hlift, hrest⟩
      rcases liftM_eq_ok.1 hlift with ⟨hlocals, rfl⟩
      -- The arguments may have changed variables, so the root is looked up again.
      rcases bind_eq_ok.1 hrest with ⟨⟨root, below⟩, _, hcurrent, hrest⟩
      rcases currentRoot_eq_ok.1 hcurrent with ⟨hroot, rfl⟩
      rcases bind_eq_ok.1 hrest with ⟨_, _, hset, hrest⟩
      rcases setFrames_eq_ok.1 hset with rfl
      cases hc : root.continuation with
      | none =>
          simp only [hc] at hrest
          rcases pushRoot_eq_ok.1 hrest with rfl
          exact Move.transferAtBottom hcallee hfound hvalues hlocals hroot hc
      | some c =>
          simp only [hc] at hrest
          rcases bind_eq_ok.1 hrest with ⟨_, _, hover, hpush⟩
          rcases handOver_eq_ok hover with ⟨after, hafter, rfl⟩
          rcases pushRoot_eq_ok.1 hpush with rfl
          exact Move.transfer (q := r) hcallee hfound hvalues hlocals hroot hc hafter

/-- An action that shows nothing. -/
theorem quiet_eq_ok {act : Act Unit} {out : Option Output}
    (h : (do act; return none) p = .ok (out, q)) : out = none ∧ act p = .ok ((), q) := by
  rcases bind_eq_ok.1 h with ⟨_, _, hact, hreturn⟩
  rcases pure_eq_ok.1 hreturn with ⟨rfl, rfl⟩
  exact ⟨rfl, hact⟩

/-- An action after which the innermost frame moves on. -/
theorem onward_eq_ok {act : Act Unit} {out : Option Output}
    (h : (do act; advance; return none) p = .ok (out, q)) :
    ∃ r f below, out = none ∧ act p = .ok ((), r) ∧ r.frames = f :: below ∧
      q = { r with frames := f.advanced :: below } := by
  rcases bind_eq_ok.1 h with ⟨_, r, hact, hrest⟩
  rcases quiet_eq_ok hrest with ⟨rfl, hadvance⟩
  rcases advance_eq_ok.1 hadvance with ⟨f, below, hframes, rfl⟩
  exact ⟨r, f, below, rfl, hact, hframes, rfl⟩

/-- Running a node to its end is one of the moves. -/
theorem move_of_runNode {group : String} {index : Nat} {node : Node} {out : Option Output}
    (h : runNode story script group index node p = .ok (out, q)) :
    Move story script p node out q := by
  cases node with
  | text id value once => exact move_of_showText h
  | code id source =>
      rcases onward_eq_ok h with ⟨r, f, below, rfl, hexecute, hframes, rfl⟩
      exact Move.code hexecute hframes
  | declare id d =>
      rcases onward_eq_ok h with ⟨_, g, under, rfl, hdeclare, hg, rfl⟩
      rcases declare_eq_ok hdeclare with ⟨value, r, f, below, hvalue, hframes, hname, hfits, rfl⟩
      cases hg
      exact Move.declare (q := r) hvalue hframes hname hfits
  | branch id source yes no =>
      rcases quiet_eq_ok h with ⟨rfl, hbranch⟩
      exact move_of_branch hbranch
  | loop id source body =>
      rcases quiet_eq_ok h with ⟨rfl, hloop⟩
      exact move_of_loop hloop
  | choice id prompt options => exact move_of_offer h
  | call id target arguments =>
      rcases quiet_eq_ok h with ⟨rfl, hcall⟩
      exact move_of_call hcall
  | finish id target arguments =>
      cases target with
      | none =>
          rcases quiet_eq_ok h with ⟨rfl, hleave⟩
          exact move_of_leaveScript hleave
      | some target =>
          rcases quiet_eq_ok h with ⟨rfl, htransfer⟩
          exact move_of_transfer htransfer
  | leave id =>
      rcases onward_eq_ok h with ⟨_, g, under, rfl, hback, hg, rfl⟩
      rcases backToLoop_eq_ok hback with ⟨owner, below, found, hbelow, hfound, hloop, rfl⟩
      cases hg
      exact Move.leave hbelow hfound hloop
  | again id =>
      rcases quiet_eq_ok h with ⟨rfl, hback⟩
      rcases backToLoop_eq_ok hback with ⟨owner, below, found, hbelow, hfound, hloop, rfl⟩
      exact Move.again hbelow hfound hloop
  | unknown => exact (fail_eq_ok.1 h).elim

end Nodes
end StoryPlayer
