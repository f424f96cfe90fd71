import StoryPlayer.Player.Rendering
import StoryPlayer.Player.Stack

/-!
# Choices

- `Act.offered` are the options that a choice offers,
- `Act.offer` shows a choice, which then waits for an answer,
- `Player.choose` answers it.
-/

namespace StoryPlayer
namespace Act

/-! ## Offering -/

/-- The option may be offered: it has not been used up and its condition holds. -/
def available (story : Story) (script : String) (option : ChoiceOption) : Act Bool := do
  if option.once && (← get).once.fired script (Once.optionKey option.id) then return false
  else
    match option.condition with
    | some source => condition story source
    | none => return true

def filterAvailable (story : Story) (script : String) : List ChoiceOption → Act (List ChoiceOption)
  | [] => return []
  | option :: rest => do
    let here ← available story script option
    let others ← filterAvailable story script rest
    return if here then option :: others else others

/-- The options that a choice offers: the ordinary ones that may be offered; if there are none, the
first one meant for that case. -/
def offered (story : Story) (script : String) (options : List ChoiceOption) :
    Act (List ChoiceOption) := do
  let ordinary ← filterAvailable story script (options.filter fun option => !option.fallOver)
  if ordinary.isEmpty then
    match options.find? ChoiceOption.fallOver with
    | some option => filterAvailable story script [option]
    | none => return []
  else return ordinary

/-- The options as they are shown, numbered from `index`. -/
def renderOptions (story : Story) : Nat → List ChoiceOption → Act (List ChoiceItem)
  | _, [] => return []
  | index, option :: rest => do
    let text ← render story option.text
    let others ← renderOptions story (index + 1) rest
    return ⟨index, option.id, text⟩ :: others

def renderOptional (story : Story) : Option String → Act (Option String)
  | some text => return some (← render story text)
  | none => return none

/-- Shows a choice; one that offers nothing is passed over. -/
def offer (story : Story) (script node : String) (prompt : Option String)
    (options : List ChoiceOption) : Act (Option Output) := do
  let shown ← offered story script options
  if shown.isEmpty then
    advance
    return none
  else
    let items ← renderOptions story 0 shown
    let prompt ← renderOptional story prompt
    let frame ← top
    let pending : Pending := { frame := frame.id, node, items, prompt }
    modify fun p => { p with pending := some pending }
    return some pending.output

/-! ## Answering -/

def optionFor? (node : Option Node) (choice item : String) : Option ChoiceOption :=
  match node with
  | some (.choice id _ options) =>
    if id = choice then options.find? fun option => option.id == item else none
  | _ => none

def choose (story : Story) (index : Nat) : Act Unit := do
  let p ← get
  match p.pending with
  | none => fail .noPendingChoice
  | some pending =>
    match pending.items[index]? with
    | none => fail (.choiceIndex index)
    | some item =>
      match Frames.upTo? pending.frame p.frames with
      | none => fail .choiceFrameGone
      | some (frame, below) =>
        let (script, group) ← liftM (story.group frame.group)
        match optionFor? group.nodes[frame.node]? pending.node item.id with
        | none => fail (.optionNotFound item.id)
        | some option =>
          -- Everything is checked before anything changes.
          let _ ← liftM (story.group option.group)
          let once :=
            if option.once then p.once.mark script (Once.optionKey option.id) else p.once
          set { p with once, frames := frame :: below }
          enter story option.group .resumeAfterChild true
          modify fun p => { p with pending := none }

end Act
end StoryPlayer
