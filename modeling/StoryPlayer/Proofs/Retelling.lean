import StoryPlayer.Proofs.Tracking

/-!
# Steps and tellings

Each step of a story is a part of its telling.

- `Continues` says that what a telling does next is what a state has come to,
- `Retold` says what the outcome of a step is in a telling,
- `answered_of_pending` shows it for answers, and `retold_of_move` for all nodes that are run to
  their end, unless they call or leave a script.
-/

namespace StoryPlayer

variable {story : Story} {p q r : Player}

/-- The node calls a script or leaves the running one. -/
def Node.isJump : Node → Bool
  | .call .. => true
  | .finish .. => true
  | _ => false

def Node.optionNames : Node → List String
  | .choice _ _ options => options.map ChoiceOption.id
  | _ => []

def Story.nodes (story : Story) : List Node :=
  story.scripts.flatMap fun script => script.2.groups.flatMap fun group => group.2.nodes

/-- The options of every choice have different names. -/
def Story.DistinctOptions (story : Story) : Prop :=
  ∀ node ∈ story.nodes, node.optionNames.Nodup

instance (story : Story) : Decidable story.DistinctOptions :=
  inferInstanceAs (Decidable (∀ node ∈ story.nodes, node.optionNames.Nodup))

/-- A node at some place is a node of the story. -/
theorem mem_nodes_of_nodeAt? {group : String} {index : Nat} {node : Node}
    (h : story.nodeAt? group index = some node) : node ∈ story.nodes := by
  unfold Story.nodeAt? at h
  cases hgroup : story.group group with
  | error fault => simp [hgroup] at h
  | ok found =>
      rw [hgroup] at h
      unfold Story.group at hgroup
      unfold Story.nodes
      generalize story.scripts = scripts at hgroup ⊢
      -- The group is that of the first script that has one of this name.
      induction scripts with
      | nil => cases hgroup
      | cons entry rest ih =>
          simp only [Story.findGroup?] at hgroup
          rw [List.flatMap_cons]
          cases hhere : Dict.get? entry.2.groups group with
          | none =>
              simp only [hhere] at hgroup
              exact List.mem_append_right _ (ih hgroup)
          | some here =>
              simp only [hhere] at hgroup
              cases hgroup
              refine List.mem_append_left _ (List.mem_flatMap.2 ?_)
              exact ⟨_, Dict.mem_of_get? hhere, List.mem_of_getElem? h⟩

/-! ## What steps lead to -/

/-- What is told next, from the levels `whole`, is what is left in the state `p`. -/
def Continues (story : Story) (whole : List Level) (told : List Event) (p : Player)
    (picks : List Nat) (log : List Event) : Prop :=
  ∃ levels, Frames.Tracked p.frames levels ∧ Spent 1 whole levels ∧
    told = p.rest story levels picks log

/-- What is told next is the answer to a choice that waits in the state `p`; without one the
telling stops. -/
inductive Answered (story : Story) (whole : List Level) (told : List Event) (p : Player)
    (log : List Event) : List Nat → Prop
  | unanswered : told = log → Answered story whole told p log []
  | refused {index : Nat} {picks : List Nat} {fault : Fault} {q : Player} :
      p.choose story index = (.error fault, q) → told = log ++ fault.told →
      Answered story whole told p log (index :: picks)
  | accepted {index : Nat} {picks : List Nat} {q : Player} :
      p.choose story index = (.ok (), q) → Continues story whole told q picks log →
      Answered story whole told p log (index :: picks)

/-- The outcome of a step that leads to the state `p` is told. -/
def Retold (story : Story) (whole : List Level) (told : List Event) (picks : List Nat)
    (log : List Event) : Progress → Player → Prop
  | .running, p => Continues story whole told p picks log
  | .shown (.text text), p =>
    Continues story whole told p picks (log ++ [.shown (.text text)])
  | .shown (.choices items prompt), p =>
    Answered story whole told p (log ++ [.shown (.choices items prompt)]) picks
  | .shown .ended, _ => told = log ++ [.shown .ended]
  | .failed fault, _ => told = log ++ fault.told

section Continuing

variable {levels : List Level} {place : Place} {fuel : Nat} {picks : List Nat} {log : List Event}
  {f : Frame} {below : List Frame} {found entered : String × Group} {group : String}
  {id : UInt64} {w : World}

/-- The frame moves on to its next node. -/
theorem continues_advanced (hgroup : story.group place.group = .ok found)
    (htracked : Frames.Tracked (f :: below) ((place, fuel + 1) :: levels))
    (hp : p.frames = f.advanced :: below) (hworld : p.world picks log = w) :
    Continues story ((place, fuel + 1) :: levels)
      (proceed story place.body levels (tellNodes story fuel found.1 place.group (place.index + 1)
        (found.2.nodes.drop (place.index + 1)) w)) p picks log := by
  refine ⟨(place.past, fuel) :: levels, ?_, Spent.onward _, ?_⟩
  · rw [hp]
    exact htracked.advanced
  · rw [Player.rest, hworld]
    exact (tellBelow_onward place.past hgroup).symm

/-- The frame moves on, and a group runs above it. -/
theorem continues_entered (hgroup : story.group place.group = .ok found)
    (hentered : story.group group = .ok entered)
    (htracked : Frames.Tracked (f :: below) ((place, fuel + 1) :: levels))
    (hp : p.frames =
      { Player.innerFrame group .resumeAfterChild with id } :: f.advanced :: below)
    (hworld : p.world picks log = w.addBlock group) :
    Continues story ((place, fuel + 1) :: levels)
      (proceed story place.body levels (Walk.andThen (tellGroup story (tellNodes story fuel) group)
        (tellNodes story fuel found.1 place.group (place.index + 1)
          (found.2.nodes.drop (place.index + 1))) w)) p picks log := by
  refine ⟨(⟨group, 0, false⟩, fuel) :: (place.past, fuel) :: levels, ?_, Spent.into, ?_⟩
  · rw [hp]
    exact List.Forall₂.cons ⟨rfl, rfl⟩ htracked.advanced
  · rw [proceed_andThen hgroup hentered, Player.rest, hworld]

/-- The body of a loop runs above the frame, which stays at the loop. -/
theorem continues_looping {node : Node} (hgroup : story.group place.group = .ok found)
    (hnode : found.2.nodes[place.index]? = some node) (hentered : story.group group = .ok entered)
    (htracked : Frames.Tracked (f :: below) ((place, fuel + 1) :: levels))
    (hp : p.frames = { Player.innerFrame group .whileBody with id } :: f :: below)
    (hworld : p.world picks log = w.addBlock group) :
    Continues story ((place, fuel + 1) :: levels)
      (proceed story place.body levels
        ((tellGroup story (tellNodes story fuel) group >>= fun flow =>
          match flow with
          | .leave => tellNodes story fuel found.1 place.group (place.index + 1)
              (found.2.nodes.drop (place.index + 1))
          | _ => tellNodes story fuel found.1 place.group place.index
              (node :: found.2.nodes.drop (place.index + 1))) w)) p picks log := by
  refine ⟨(⟨group, 0, true⟩, fuel) :: (place, fuel) :: levels, ?_, Spent.into, ?_⟩
  · rw [hp]
    exact List.Forall₂.cons ⟨rfl, rfl⟩ htracked.refueled
  · rw [Player.rest, hworld]
    refine proceed_tellGroup hentered fun flow w => ?_
    -- Whether the body has come to its end or is repeated, the loop is tested again.
    have hagain : proceed story place.body levels (tellNodes story fuel found.1 place.group
        place.index (node :: found.2.nodes.drop (place.index + 1)) w) =
        proceed story place.body levels (tellFrom story fuel place.group place.index w) := by
      rcases List.getElem?_eq_some_iff.1 hnode with ⟨hlt, heq⟩
      rw [tellFrom_eq hgroup, List.drop_eq_getElem_cons hlt, heq]
    cases flow with
    | onward => exact hagain
    | again => exact hagain
    | leave =>
        rw [← tellFrom_eq hgroup]
        rfl

theorem world_advanced (h : p.frames = f :: below) (once : Once) :
    Player.world { p with frames := f.advanced :: below, once } picks log =
      Player.world { p with once } picks log := by
  simp only [Player.world, h]
  rfl

end Continuing

/-! ## Single nodes -/

section Nodes

variable {picks : List Nat} {log : List Event} {script : String} {enter : String → Walk Flow}
  {onward again : Walk Flow}

/-- A text that has been used is not told again. -/
theorem tellText_used {id value : String} (h : p.once.fired script (Once.textKey id) = true) :
    tellText story script id value true onward (p.world picks log) =
      onward (p.world picks log) := by
  change (if (true && p.once.fired script (Once.textKey id)) = true then onward else _) _ = _
  rw [h]
  rfl

/-- Another text is told, and marked if it is to be shown once. -/
theorem tellText_shown {id value shown : String} {once : Bool}
    (h : (once && p.once.fired script (Once.textKey id)) = false)
    (hrender : Act.render story value p = .ok (shown, q)) :
    tellText story script id value once onward (p.world picks log) =
      onward (Player.world
        { q with once := if once then q.once.mark script (Once.textKey id) else q.once }
        picks (log ++ [.shown (.text shown)])) := by
  change (if (once && p.once.fired script (Once.textKey id)) = true then onward else _) _ = _
  rw [h, if_neg (by decide), Walk.ok_bind (compute_ok (blind_render story value) hrender)]
  cases once <;> rfl

/-- A branch tells the group that its condition picks. -/
theorem tellBranch_eq {source yes : String} {no : Option String} {holds : Bool}
    (h : Act.condition story source p = .ok (holds, q)) :
    tellBranch story enter onward source yes no (p.world picks log) =
      (match if holds then some yes else no with
        | some group => Walk.andThen (enter group) onward
        | none => onward) (q.world picks log) := by
  exact Walk.ok_bind (compute_ok (blind_condition story source) h)

/-- A loop tells its body once more, or goes on. -/
theorem tellLoop_eq {source body : String} {holds : Bool}
    (h : Act.condition story source p = .ok (holds, q)) :
    tellLoop story enter onward again source body (p.world picks log) =
      (if holds then enter body >>= fun flow => match flow with | .leave => onward | _ => again
        else onward) (q.world picks log) := by
  exact Walk.ok_bind (compute_ok (blind_condition story source) h)

/-- A choice without options is passed over. -/
theorem tellChoice_over {prompt : Option String} {options : List ChoiceOption}
    (h : Act.offered story script options p = .ok ([], q)) :
    tellChoice story enter onward script prompt options (p.world picks log) =
      onward (q.world picks log) := by
  unfold tellChoice
  rw [Walk.ok_bind (compute_ok (blind_offered story script options) h)]
  rfl

/-- A choice with options is shown, and then answered. -/
theorem tellChoice_shown {prompt text : Option String} {options shown : List ChoiceOption}
    {items : List ChoiceItem} {s : Player}
    (hoffered : Act.offered story script options p = .ok (shown, q)) (hshown : shown ≠ [])
    (hitems : Act.renderOptions story 0 shown q = .ok (items, r))
    (hprompt : Act.renderOptional story prompt r = .ok (text, s)) :
    tellChoice story enter onward script prompt options (p.world picks log) =
      tellAnswer enter onward script shown
        (s.world picks (log ++ [.shown (.choices items text)])) := by
  unfold tellChoice
  rw [Walk.ok_bind (compute_ok (blind_offered story script options) hoffered)]
  have hsome : shown.isEmpty = false := by simpa using hshown
  rw [hsome, if_neg (by decide)]
  rw [Walk.ok_bind (compute_ok (blind_renderOptions story 0 shown) hitems)]
  rw [Walk.ok_bind (compute_ok (blind_renderOptional story prompt) hprompt)]
  rfl

/-- A pick of an item that is not there fails. -/
theorem tellAnswer_missing {shown : List ChoiceOption} {index : Nat}
    (h : shown[index]? = none) :
    tellAnswer enter onward script shown (p.world (index :: picks) log) =
      .error (log ++ (Fault.choiceIndex index).told) := by
  have hpick : Walk.pick (p.world (index :: picks) log) = .ok (index, p.world picks log) := rfl
  unfold tellAnswer
  rw [Walk.ok_bind hpick, h]
  rfl

/-- A pick tells the group of the option that was shown at this place. -/
theorem tellAnswer_found {shown : List ChoiceOption} {index : Nat} {option : ChoiceOption}
    (h : shown[index]? = some option) :
    tellAnswer enter onward script shown (p.world (index :: picks) log) =
      Walk.andThen (enter option.group) onward (Player.world
        { p with
          once := if option.once then p.once.mark script (Once.optionKey option.id) else p.once }
        picks log) := by
  have hpick : Walk.pick (p.world (index :: picks) log) = .ok (index, p.world picks log) := rfl
  unfold tellAnswer
  rw [Walk.ok_bind hpick, h]
  cases honce : option.once <;> simp only [honce] <;> rfl

/-- A group that does not exist is not entered. -/
theorem tellGroup_missing {tell : String → String → Nat → List Node → Walk Flow} {group : String}
    {fault : Fault} (h : story.group group = .error fault) :
    tellGroup story tell group (p.world picks log) = .error (log ++ fault.told) := by
  unfold tellGroup
  rw [h]
  rfl

end Nodes

/-! ## Answers -/

section Answers

variable {c : Pending} {index : Nat}

/-- An item that is not there cannot be chosen, and nothing changes. -/
theorem choose_missing (hc : p.pending = some c) (hitem : c.items[index]? = none) :
    p.choose story index = (.error (.choiceIndex index), p) := by
  have hact : Act.choose story index p = .error ⟨.choiceIndex index, p⟩ := by
    unfold Act.choose
    rw [Act.bind_of_ok (Act.get_eq_ok.2 ⟨rfl, rfl⟩), hc]
    simp only [hitem]
    rfl
  simp only [Player.choose, Player.perform, hact]

/-- The answer to a choice whose option is found depends on its group only. -/
theorem choose_found {item : ChoiceItem} {f : Frame} {below : List Frame}
    {found : String × Group} {option : ChoiceOption} (hc : p.pending = some c)
    (hitem : c.items[index]? = some item)
    (hup : Frames.upTo? c.frame p.frames = some (f, below))
    (hgroup : story.group f.group = .ok found)
    (hoption : Act.optionFor? found.2.nodes[f.node]? c.node item.id = some option) :
    p.choose story index =
      match story.group option.group with
      | .error fault => (.error fault, p)
      | .ok _ =>
        (.ok (), { Player.push
            { p with
              frames := f.advanced :: below
              once := if option.once then p.once.mark found.1 (Once.optionKey option.id)
                else p.once }
            (Player.innerFrame option.group .resumeAfterChild) with pending := none }) := by
  -- With everything found, the rest marks the option, unwinds to the choice and enters the group.
  have hact : Act.choose story index p = (do
      let _ ← liftM (story.group option.group)
      set { p with
        once := if option.once then p.once.mark found.1 (Once.optionKey option.id) else p.once
        frames := f :: below }
      Act.enter story option.group .resumeAfterChild true
      modify fun p => { p with pending := none } : Act Unit) p := by
    unfold Act.choose
    rw [Act.bind_of_ok (Act.get_eq_ok.2 ⟨rfl, rfl⟩), hc]
    simp only [hitem, hup]
    rw [Act.bind_of_ok (Act.liftM_eq_ok.2 ⟨hgroup, rfl⟩)]
    simp only [hoption]
  simp only [Player.choose, Player.perform, hact]
  cases hentered : story.group option.group with
  | error fault => rfl
  | ok entered =>
      simp only [Act.enter, hentered]
      rfl

end Answers

section Telling

variable {levels : List Level} {fuel : Nat} {picks : List Nat} {log : List Event} {f : Frame}
  {below : List Frame} {found : String × Group} {node : Node} {place : Place}

/-- What is told first is the node at which the innermost frame stands. -/
theorem rest_of_node (hgroup : story.group f.group = .ok found)
    (hnode : found.2.nodes[f.node]? = some node) :
    p.rest story ((f.place, fuel) :: levels) picks log =
      proceed story f.place.body levels (tellNodes story fuel found.1 f.group f.node
        (node :: found.2.nodes.drop (f.node + 1)) (p.world picks log)) := by
  rcases List.getElem?_eq_some_iff.1 hnode with ⟨hlt, heq⟩
  rw [← heq, ← List.drop_eq_getElem_cons hlt]
  exact tellBelow_onward f.place hgroup

/-- The answer to a choice whose options have different names is told. -/
theorem answered_of_pending {c : Pending} {prompt : Option String}
    {options shown : List ChoiceOption} (hdistinct : (options.map ChoiceOption.id).Nodup)
    (hp : p.WellFormed story) (hc : p.pending = some c)
    (hgroup : story.group place.group = .ok found)
    (hnode : found.2.nodes[place.index]? = some (.choice c.node prompt options))
    (hids : c.items.map ChoiceItem.id = shown.map ChoiceOption.id) (hshown : shown ⊆ options)
    (htracked : Frames.Tracked p.frames ((place, fuel + 1) :: levels)) :
    Answered story ((place, fuel + 1) :: levels)
      (proceed story place.body levels (tellAnswer (tellGroup story (tellNodes story fuel))
        (tellNodes story fuel found.1 place.group (place.index + 1)
          (found.2.nodes.drop (place.index + 1)))
        found.1 shown (p.world picks log))) p log picks := by
  rcases upTo?_pending hp hc with ⟨f, below, hframes, hup⟩
  rw [hframes] at htracked
  obtain rfl : f.place = place := (List.forall₂_cons.1 htracked).1.1
  cases picks with
  | nil => exact Answered.unanswered rfl
  | cons index picks =>
      have hlength : c.items.length = shown.length := by
        simpa using congrArg List.length hids
      cases hoption : shown[index]? with
      | none =>
          have hitem : c.items[index]? = none := by
            rw [List.getElem?_eq_none_iff] at hoption ⊢
            omega
          refine Answered.refused (choose_missing hc hitem) ?_
          rw [tellAnswer_missing hoption]
          rfl
      | some option =>
          -- The name of the item leads back to the option that was shown.
          obtain ⟨item, hitem, hid⟩ : ∃ item, c.items[index]? = some item ∧
              item.id = option.id := by
            have hplace := congrArg (fun ids => ids[index]?) hids
            simpa [hoption] using hplace
          have hfirst := find?_id_of_nodup hdistinct (hshown (List.mem_of_getElem? hoption))
          have hfound : Act.optionFor? found.2.nodes[f.node]? c.node item.id = some option := by
            change found.2.nodes[f.node]? = _ at hnode
            simpa [Act.optionFor?, hnode, hid] using hfirst
          have hchoose := choose_found hc hitem hup hgroup hfound
          rw [tellAnswer_found hoption]
          cases hentered : story.group option.group with
          | error fault =>
              rw [hentered] at hchoose
              refine Answered.refused hchoose ?_
              rw [Walk.andThen, Walk.error_bind (tellGroup_missing hentered)]
              rfl
          | ok entered =>
              rw [hentered] at hchoose
              refine Answered.accepted hchoose ?_
              refine continues_entered hgroup hentered htracked rfl ?_
              simp only [Player.world, hframes]
              rfl

/-- What a declaration computes and adds is one action. -/
theorem declare_of_firstValue {d : Declaration} {value : Value}
    (hvalue : FirstValue story d p value q) (hq : q.frames = f :: below)
    (hnew : Dict.contains f.scope d.name = false) (hfits : Value.fits d.type value = true) :
    Act.declare story d p = .ok ((), { q with frames := { f with
      scope := Dict.insert f.scope d.name value
      types := Dict.insert f.types d.name d.type } :: below }) := by
  rcases hvalue.evaluated.cons hq with ⟨g, under, hp, hrevalued, -⟩
  have htop : Act.top p = .ok (g, p) := Act.top_eq_ok.2 ⟨⟨under, hp⟩, rfl⟩
  have hfirst : Act.firstValue story d p = .ok (value, q) := by
    unfold FirstValue at hvalue
    unfold Act.firstValue
    cases hd : d.initial with
    | none =>
      rw [hd] at hvalue
      rw [hvalue.1, hvalue.2]
      rfl
    | some source =>
      rw [hd] at hvalue
      exact Act.rewording_eq_ok.2 hvalue
  refine Act.bind_eq_ok.2 ⟨g, p, htop, ?_⟩
  -- That the name is new was tested before its value was computed, which adds no names.
  rw [← hrevalued.names, hnew, if_neg (by decide)]
  refine Act.bind_eq_ok.2 ⟨value, q, hfirst, ?_⟩
  unfold Act.declareAs
  rw [if_pos hfits]
  refine Act.bind_eq_ok.2 ⟨q, q, rfl, ?_⟩
  rw [hq]
  rfl

/-- A node that is run to its end is told. -/
theorem retold_of_move {out : Option Output} (h : Move story found.1 p node out q)
    (hjump : node.isJump = false) (hdistinct : story.DistinctOptions)
    (hstack : Frames.Stacked story p.counter p.frames) (hq : q.WellFormed story)
    (hframes : p.frames = f :: below) (hgroup : story.group f.group = .ok found)
    (hnode : found.2.nodes[f.node]? = some node)
    (htracked : Frames.Tracked p.frames ((f.place, fuel + 1) :: levels)) :
    Retold story ((f.place, fuel + 1) :: levels)
      (p.rest story ((f.place, fuel + 1) :: levels) picks log) picks log
      (Progress.ofOutput out) q := by
  -- Formulas change values only, so the frames stay where they are.
  have htrack : ∀ {r g under}, p.Evaluated r → r.frames = g :: under →
      Frames.Tracked (g :: under) ((f.place, fuel + 1) :: levels) := by
    intro r g under heval hr
    rw [← hr]
    exact htracked.revalued heval.frames
  rw [rest_of_node hgroup hnode]
  cases h with
  | @textUsed id value g under hfired hg =>
      change Continues _ _ (proceed _ _ _ (tellText story found.1 id value true _ _)) _ _ _
      rw [tellText_used hfired]
      exact continues_advanced hgroup (htrack (.refl p) hg) rfl (world_advanced hg _)
  | @text id value shown once r g under hfresh hrender hg =>
      change Continues _ _ (proceed _ _ _ (tellText story found.1 id value once _ _)) _ _ _
      have heval := (Act.evaluates_render story _).ok hrender
      rw [tellText_shown hfresh hrender]
      exact continues_advanced hgroup (htrack heval hg) rfl (world_advanced hg _)
  | @code id source r g under hexecute hg =>
      have heval := (Act.evaluates_execute story _).ok hexecute
      change Continues _ _ (proceed _ _ _ ((Walk.compute (Act.execute story source) >>= fun _ =>
        tellNodes story fuel _ _ _ _) _)) _ _ _
      rw [Walk.ok_bind (compute_ok (blind_execute story source) hexecute)]
      exact continues_advanced hgroup (htrack heval hg) rfl (world_advanced hg _)
  | @declare id d value r g under hvalue hg hnew hfits =>
      have hdeclare := declare_of_firstValue hvalue hg hnew hfits
      change Continues _ _ (proceed _ _ _ ((Walk.compute (Act.declare story d) >>= fun _ =>
        tellNodes story fuel _ _ _ _) _)) _ _ _
      rw [Walk.ok_bind (compute_ok (blind_declare story d) hdeclare)]
      refine continues_advanced hgroup ?_ rfl rfl
      cases htrack hvalue.evaluated hg with
      | cons hfirst hrest => exact List.Forall₂.cons hfirst hrest
  | @branchOver id source yes r g under hcondition hg =>
      change Continues _ _ (proceed _ _ _ (tellBranch story _ _ source yes none _)) _ _ _
      have heval := (Act.evaluates_condition story _).ok hcondition
      rw [tellBranch_eq hcondition]
      exact continues_advanced hgroup (htrack heval hg) rfl (world_advanced hg _)
  | @branchInto id source yes group no holds r g under entered hcondition hg htarget hentered =>
      change Continues _ _ (proceed _ _ _ (tellBranch story _ _ source yes no _)) _ _ _
      have heval := (Act.evaluates_condition story _).ok hcondition
      rw [tellBranch_eq hcondition, htarget]
      refine continues_entered hgroup hentered (htrack heval hg) rfl ?_
      exact congrArg (World.addBlock · group) (world_advanced hg _)
  | @loopOver id source body r g under hcondition hg =>
      change Continues _ _ (proceed _ _ _ (tellLoop story _ _ _ source body _)) _ _ _
      have heval := (Act.evaluates_condition story _).ok hcondition
      rw [tellLoop_eq hcondition]
      exact continues_advanced hgroup (htrack heval hg) rfl (world_advanced hg _)
  | @loopInto id source body r entered hcondition hentered =>
      change Continues _ _ (proceed _ _ _ (tellLoop story _ _ _ source body _)) _ _ _
      have heval := (Act.evaluates_condition story _).ok hcondition
      rcases heval.top hframes with ⟨g, under, hg, -⟩
      rw [tellLoop_eq hcondition]
      have hentry : (r.push (Player.innerFrame body .whileBody)).frames =
          { Player.innerFrame body .whileBody with id := r.counter } :: g :: under := by
        simp only [Player.push, hg]
      exact continues_looping hgroup hnode hentered (htrack heval hg) hentry rfl
  | @choiceOver id prompt options r g under hoffered hg =>
      change Continues _ _ (proceed _ _ _ (tellChoice story _ _ _ prompt options _)) _ _ _
      have heval := (Act.evaluates_offered story _ _).ok hoffered
      rw [tellChoice_over hoffered]
      exact continues_advanced hgroup (htrack heval hg) rfl (world_advanced hg _)
  | @choice _ prompt _ options _ _ _ _ _ _ _ hoffered hshown hitems hprompt _ =>
      change Answered _ _ (proceed _ _ _ (tellChoice story _ _ _ prompt options _)) _ _ _
      have heval := evaluated_of_choice hoffered hitems hprompt
      rw [tellChoice_shown hoffered hshown hitems hprompt]
      have hnames := hdistinct _ (mem_nodes_of_nodeAt? ((nodeAt?_of_group hgroup).trans hnode))
      refine answered_of_pending hnames hq rfl hgroup hnode (items_of_renderOptions hitems).1
        (mem_of_offered hoffered) ?_
      exact htracked.revalued heval.frames
  | call _ _ _ _ _ _ _ => cases hjump
  | tailCall _ _ _ _ _ _ _ _ _ => cases hjump
  | leaveScript _ _ => cases hjump
  | transferAtBottom _ _ _ _ _ _ => cases hjump
  | transfer _ _ _ _ _ _ _ => cases hjump
  | @leave id owner under entered hbelow hentered hloop =>
      change Continues _ _ (tellBelow _ _ _ .leave _) _ _ _
      rw [hframes] at hstack htracked
      have hne : Flow.leave ≠ .onward := by decide
      rcases lower_of_belowLoop hne hstack htracked hframes hbelow with
        ⟨lower, hsuffix, hlower, hsame⟩
      rw [hsame]
      -- The frame of the loop goes on after it; all above it is gone.
      cases hlower with
      | @cons _ level _ lower hfirst hrest =>
          refine ⟨(level.1.past, level.2) :: lower, ?_, (Spent.suffix hsuffix).moved, rfl⟩
          exact List.Forall₂.cons ⟨congrArg Place.past hfirst.1, hfirst.2⟩ hrest
  | @again id owner under entered hbelow hentered hloop =>
      change Continues _ _ (tellBelow _ _ _ .again _) _ _ _
      rw [hframes] at hstack htracked
      have hne : Flow.again ≠ .onward := by decide
      rcases lower_of_belowLoop hne hstack htracked hframes hbelow with
        ⟨lower, hsuffix, hlower, hsame⟩
      rw [hsame]
      -- The frame of the loop still stands at it.
      refine ⟨lower, hlower, Spent.suffix hsuffix, ?_⟩
      cases hlower
      rfl

end Telling

end StoryPlayer
