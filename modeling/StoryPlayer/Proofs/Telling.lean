import StoryPlayer.Player.Step

/-!
# Stories told by recursion

A story can be told without a stack of frames: the nodes of a group are told one after the other,
and a node that leads into another group tells that group before it goes on.

- `World` is what a telling works on: the variables of the running groups, what has been used, the
  generator, the answers that are still to be given, and what has been told,
- `Walk` is a part of a telling; it ends in a world, or the telling stops,
- `tellNodes` tells the nodes of a group.  They are used up, or a node leaves or repeats the
  innermost loop: `Flow`,
- `Story.tell` tells a script from its start.

A telling need not come to an end.  `fuel` bounds the depth of the recursion; a telling that runs
out of it stops with what has been told till then.  Calls between scripts are not told.
-/

namespace StoryPlayer

/-! ## Worlds -/

/-- Something that happens in a story: it shows something, or it fails. -/
inductive Event
  | shown (output : Output)
  | failed (fault : Fault)
  deriving DecidableEq, Repr

/-- What is told of a fault.  A story that stops because of too many steps is asked again, and
nothing is told of it. -/
def Fault.told (fault : Fault) : List Event :=
  if fault = .guardExceeded Player.guardLimit then [] else [.failed fault]

structure Block where
  group : String
  scope : Dict Value
  types : Dict ScriptType

/-- What a telling works on. -/
structure World where
  /-- The running groups, the innermost first. -/
  blocks : List Block
  once : Once
  generator : UInt32
  /-- The answers that are still to be given. -/
  picks : List Nat
  /-- What has been told. -/
  log : List Event

def Block.frame (block : Block) : Frame where
  id := 0
  group := block.group
  node := 0
  scope := block.scope
  types := block.types
  completion := .none
  root := false
  continuation := none

def World.addBlock (w : World) (group : String) : World :=
  { w with blocks := ⟨group, [], []⟩ :: w.blocks }

/-- The world without the variables of the innermost group. -/
def World.dropBlock (w : World) : World :=
  { w with blocks := w.blocks.drop 1 }

def Frame.block (f : Frame) : Block :=
  ⟨f.group, f.scope, f.types⟩

def World.player (w : World) : Player where
  frames := w.blocks.map Block.frame
  pending := none
  ended := false
  counter := 0
  once := w.once
  generator := w.generator

/-- The world of a state, with the answers to be given and what has been told. -/
def Player.world (p : Player) (picks : List Nat) (log : List Event) : World where
  blocks := p.frames.map Frame.block
  once := p.once
  generator := p.generator
  picks := picks
  log := log

/-! ## Walks -/

/-- A part of a telling.  One that stops leaves what has been told. -/
abbrev Walk := StateT World (Except (List Event))

namespace Walk

variable {α : Type}

def stop (events : List Event) : Walk α :=
  fun w => .error (w.log ++ events)

def fail (fault : Fault) : Walk α :=
  stop fault.told

def ofExcept : Except Fault α → Walk α
  | .ok x => pure x
  | .error fault => fail fault

def compute (act : Act α) : Walk α :=
  fun w =>
    match act w.player with
    | .ok (x, p) => .ok (x, p.world w.picks w.log)
    | .error failure => .error (w.log ++ failure.fault.told)

def say (output : Output) : Walk Unit :=
  modify fun w => { w with log := w.log ++ [.shown output] }

def useUp (script key : String) : Walk Unit :=
  modify fun w => { w with once := w.once.mark script key }

/-- Takes the next answer.  Without one the telling stops. -/
def pick : Walk Nat :=
  fun w =>
    match w.picks with
    | [] => .error w.log
    | index :: rest => .ok (index, { w with picks := rest })

end Walk

/-! ## Nodes -/

inductive Flow
  /-- They are used up. -/
  | onward
  /-- The innermost loop is left. -/
  | leave
  /-- The innermost loop is tested again. -/
  | again
  deriving DecidableEq, Repr

/-- Gives a group variables of its own, which are dropped at its end. -/
def Walk.within (group : String) (body : Walk Flow) : Walk Flow := do
  modify fun w => w.addBlock group
  let flow ← body
  modify fun w => w.dropBlock
  return flow

/-- Goes on after a group whose nodes are used up; a loop around it is left or tested again. -/
def Walk.andThen (inner onward : Walk Flow) : Walk Flow := do
  match ← inner with
  | .onward => onward
  | flow => return flow

section Nodes

variable (story : Story)

/-- Tells a group; `tell` tells nodes of a group of a script from an index on. -/
def tellGroup (tell : String → String → Nat → List Node → Walk Flow) (group : String) :
    Walk Flow := do
  let (script, found) ← Walk.ofExcept (story.group group)
  Walk.within group (tell script group 0 found.nodes)

/-- A text, at most once if that is asked for. -/
def tellText (script id value : String) (once : Bool) (onward : Walk Flow) : Walk Flow := do
  if once && (← get).once.fired script (Once.textKey id) then onward
  else
    let text ← Walk.compute (Act.render story value)
    Walk.say (.text text)
    if once then Walk.useUp script (Once.textKey id)
    onward

def tellBranch (enter : String → Walk Flow) (onward : Walk Flow) (source yes : String)
    (no : Option String) : Walk Flow := do
  let holds ← Walk.compute (Act.condition story source)
  match if holds then some yes else no with
  | some group => Walk.andThen (enter group) onward
  | none => onward

/-- A group while a condition holds; `repeated` tells the loop once more. -/
def tellLoop (enter : String → Walk Flow) (onward repeated : Walk Flow) (source body : String) :
    Walk Flow := do
  if ← Walk.compute (Act.condition story source) then
    match ← enter body with
    | .leave => onward
    | _ => repeated
  else onward

def tellAnswer (enter : String → Walk Flow) (onward : Walk Flow) (script : String)
    (shown : List ChoiceOption) : Walk Flow := do
  let index ← Walk.pick
  match shown[index]? with
  | none => Walk.fail (.choiceIndex index)
  | some option =>
    if option.once then Walk.useUp script (Once.optionKey option.id)
    Walk.andThen (enter option.group) onward

def tellChoice (enter : String → Walk Flow) (onward : Walk Flow) (script : String)
    (prompt : Option String) (options : List ChoiceOption) : Walk Flow := do
  let shown ← Walk.compute (Act.offered story script options)
  if shown.isEmpty then onward
  else
    let items ← Walk.compute (Act.renderOptions story 0 shown)
    let text ← Walk.compute (Act.renderOptional story prompt)
    Walk.say (.choices items text)
    tellAnswer enter onward script shown

/-- Tells nodes of a group of a script from an index on. -/
def tellNodes : Nat → String → String → Nat → List Node → Walk Flow
  | _, _, _, _, [] => return .onward
  | 0, _, _, _, _ :: _ => Walk.stop []
  | fuel + 1, script, group, index, node :: rest =>
    let onward := tellNodes fuel script group (index + 1) rest
    let enter := tellGroup story (tellNodes fuel)
    match node with
    | .text id value once => tellText story script id value once onward
    | .code _ source => do
      Walk.compute (Act.execute story source)
      onward
    | .declare _ d => do
      Walk.compute (Act.declare story d)
      onward
    | .branch _ source yes no => tellBranch story enter onward source yes no
    | .loop _ source body =>
      tellLoop story enter onward (tellNodes fuel script group index (node :: rest)) source body
    | .choice _ prompt options => tellChoice story enter onward script prompt options
    | .leave _ => return .leave
    | .again _ => return .again
    | .call .. => Walk.stop []
    | .finish .. => Walk.stop []
    | .unknown => Walk.fail (.nodeUnknown index group)

end Nodes

/-! ## Stories -/

/-- What is told at the end of a script.  There is no loop around it. -/
def Flow.told : Flow → List Event
  | .onward => [.shown .ended]
  | .leave => (Fault.outsideLoop "break").told
  | .again => (Fault.outsideLoop "continue").told

/-- Tells a script from its start with arguments; the picks answer its choices. -/
def Story.tell (story : Story) (fuel : Nat) (script : String) (arguments : Dict Value)
    (picks : List Nat) : List Event :=
  match Dict.get? story.scripts script with
  | none => (Fault.entryNotRegistered script).told
  | some found =>
    match story.group found.root with
    | .error fault => fault.told
    | .ok (owner, group) =>
      match story.locals script arguments with
      | .error fault => fault.told
      | .ok locals =>
        let start : World :=
          ⟨[⟨found.root, locals.scope, locals.types⟩], [], story.seed, picks, []⟩
        match tellNodes story fuel owner found.root 0 group.nodes start with
        | .error log => log
        | .ok (flow, w) => w.log ++ flow.told

/-! ## Walks one after the other -/

namespace Walk

variable {α β : Type} {w w' : World} {walk : Walk α} {f : α → Walk β}

/-- A telling goes on with what the first part has left. -/
theorem ok_bind {x : α} (h : walk w = .ok (x, w')) : (walk >>= f) w = f x w' := by
  change (walk w >>= fun s => f s.1 s.2) = _
  rw [h]
  rfl

/-- A telling that has stopped stays stopped. -/
theorem error_bind {log : List Event} (h : walk w = .error log) :
    (walk >>= f) w = .error log := by
  change (walk w >>= fun s => f s.1 s.2) = _
  rw [h]
  rfl

end Walk

/-! ## What has been told -/

/-- What has been told before stays told. -/
structure Walk.Extends {α : Type} (walk : Walk α) : Prop where
  ok : ∀ {w x v}, walk w = .ok (x, v) → w.log <+: v.log
  error : ∀ {w log}, walk w = .error log → w.log <+: log

namespace Walk.Extends

variable {α β : Type}

theorem pure (x : α) : Extends (Pure.pure x : Walk α) where
  ok h := by
    cases h
    exact List.prefix_rfl
  error h := by cases h

theorem bind {walk : Walk α} {f : α → Walk β} (h : Extends walk) (hf : ∀ x, Extends (f x)) :
    Extends (walk >>= f) where
  ok := by
    intro w y u hok
    cases hw : walk w with
    | error log =>
        rw [error_bind hw] at hok
        cases hok
    | ok result =>
        rw [ok_bind hw] at hok
        exact (h.ok hw).trans ((hf result.1).ok hok)
  error := by
    intro w log herror
    cases hw : walk w with
    | error first =>
        rw [error_bind hw] at herror
        cases herror
        exact h.error hw
    | ok result =>
        rw [ok_bind hw] at herror
        exact (h.ok hw).trans ((hf result.1).error herror)

theorem get : Extends (MonadState.get : Walk World) where
  ok h := by
    cases h
    exact List.prefix_rfl
  error h := by cases h

theorem update {change : World → World} (h : ∀ w, w.log <+: (change w).log) :
    Extends (modify change : Walk Unit) where
  ok hok := by
    cases hok
    exact h _
  error herror := by cases herror

/-- What is told at the end is added. -/
theorem stop (events : List Event) : Extends (Walk.stop events : Walk α) where
  ok h := by cases h
  error h := by
    cases h
    exact List.prefix_append _ _

theorem ofExcept (e : Except Fault α) : Extends (Walk.ofExcept e) := by
  cases e with
  | ok x => exact Extends.pure x
  | error fault => exact Extends.stop _

/-- Formulas tell nothing, unless they fail. -/
theorem compute (act : Act α) : Extends (Walk.compute act) where
  ok := by
    intro w x v h
    unfold Walk.compute at h
    split at h
    · cases h
      exact List.prefix_rfl
    · cases h
  error := by
    intro w log h
    unfold Walk.compute at h
    split at h
    · cases h
    · cases h
      exact List.prefix_append _ _

theorem pick : Extends Walk.pick where
  ok := by
    intro w index v h
    unfold Walk.pick at h
    split at h
    · cases h
    · cases h
      exact List.prefix_rfl
  error := by
    intro w log h
    unfold Walk.pick at h
    split at h
    · cases h
      exact List.prefix_rfl
    · cases h

theorem useUp (script key : String) : Extends (Walk.useUp script key) :=
  update fun _ => List.prefix_rfl

theorem say (output : Output) : Extends (Walk.say output) :=
  update fun _ => List.prefix_append _ _

theorem andThen {inner onward : Walk Flow} (hinner : Extends inner) (honward : Extends onward) :
    Extends (Walk.andThen inner onward) := by
  refine hinner.bind fun flow => ?_
  cases flow with
  | onward => exact honward
  | leave => exact Extends.pure _
  | again => exact Extends.pure _

/-- A group tells what is inside of it. -/
theorem within {inner : Walk Flow} (h : Extends inner) (group : String) :
    Extends (Walk.within group inner) := by
  have hadd : Extends (modify fun w => w.addBlock group : Walk Unit) :=
    update fun _ => List.prefix_rfl
  have hdrop : Extends (modify fun w => w.dropBlock : Walk Unit) := update fun _ => List.prefix_rfl
  exact hadd.bind fun _ => h.bind fun flow => hdrop.bind fun _ => Extends.pure flow

/-- By induction on the fuel: nodes only add to what has been told. -/
theorem nodes (fuel : Nat) (script group : String) (index : Nat) (nodes : List Node) :
    Extends (tellNodes story fuel script group index nodes) := by
  -- On the fuel, not on the nodes: a group that is entered and a loop that is repeated start anew.
  induction fuel generalizing script group index nodes with
  | zero =>
      cases nodes with
      | nil => exact Extends.pure _
      | cons node rest => exact Extends.stop _
  | succ fuel ih =>
      cases nodes with
      | nil => exact Extends.pure _
      | cons node rest =>
        have honward := ih script group (index + 1) rest
        have henter : ∀ child, Extends (tellGroup story (tellNodes story fuel) child) :=
          fun child => (ofExcept _).bind fun found => (ih _ _ _ _).within child
        cases node with
        | text id value once =>
            refine get.bind fun w => ?_
            split
            · exact honward
            · refine (compute _).bind fun text => (say _).bind fun _ => ?_
              cases once with
              | true => exact (useUp _ _).bind fun _ => honward
              | false => exact honward
        | code id source => exact (compute _).bind fun _ => honward
        | declare id d => exact (compute _).bind fun _ => honward
        | branch id source yes no =>
            refine (compute _).bind fun holds => ?_
            split
            · exact (henter _).andThen honward
            · exact honward
        | loop id source body =>
            refine (compute _).bind fun holds => ?_
            split
            · refine (henter _).bind fun flow => ?_
              cases flow with
              | leave => exact honward
              | onward => exact ih _ _ _ _
              | again => exact ih _ _ _ _
            · exact honward
        | choice id prompt options =>
            refine (compute _).bind fun shown => ?_
            split
            · exact honward
            · refine (compute _).bind fun items => (compute _).bind fun text => ?_
              refine (say _).bind fun _ => pick.bind fun index => ?_
              split
              · exact Extends.stop _
              · next option _ =>
                dsimp only
                split
                · exact (useUp _ _).bind fun _ => (henter _).andThen honward
                · exact (henter _).andThen honward
        | call id target arguments => exact Extends.stop _
        | finish id target arguments => exact Extends.stop _
        | leave id => exact Extends.pure _
        | again id => exact Extends.pure _
        | unknown => exact Extends.stop _

end Walk.Extends

end StoryPlayer
