import StoryPlayer.Player.Step

/-!
# Saving and restoring

A story can be saved while a choice waits for an answer.  A save is checked completely against the
story before anything of it is taken over.

- `Player.snapshot` saves the state,
- `Snapshot.check` checks a save,
- `Snapshot.restored` is the state that a save describes, `Player.resume` takes it over.
-/

namespace StoryPlayer

/-! ## Saving -/

namespace Snapshot

/-- The cursor of frames, given from the lowest to the innermost. -/
def cursorOf (frames : List Frame) : Cursor where
  groups := frames.map Frame.group
  node := (frames.getLast?.map Frame.node).getD 0

def scopesOf (frames : List Frame) : List ScopeEntry :=
  frames.map fun frame => ⟨frame.id, frame.group, frame.scope⟩

def continuationsOf (frames : List Frame) : List Continuation :=
  frames.filterMap Frame.continuation

end Snapshot

/-- What has been used, without scripts in which nothing has. -/
def Once.saved (once : Once) : Dict (List String) :=
  once.filter fun entry => !entry.2.isEmpty

namespace Player

def snapshot (story : Story) (p : Player) : Except Fault Snapshot :=
  match p.pending with
  | none => .error .snapshotNotAllowed
  | some pending =>
    let frames := p.frames.reverse
    .ok {
      schema := Snapshot.currentSchema
      version := story.version
      cursor := Snapshot.cursorOf frames
      frames := frames
      scopes := Snapshot.scopesOf frames
      continuations := Snapshot.continuationsOf frames
      rng := p.generator
      waiting := true
      choice := pending.node
      items := pending.items
      prompt := pending.prompt
      once := p.once.saved }

end Player

/-! ## Checking -/

namespace Snapshot

/-- The items are numbered from `position` on and no name among them is `seen` or repeated. -/
def checkItems (seen : List String) : Nat → List ChoiceItem → Except Fault Unit
  | _, [] => .ok ()
  | position, item :: rest =>
    if item.index ≠ position ∨ seen.contains item.id then .error (.snapshotItem position)
    else checkItems (item.id :: seen) (position + 1) rest

def checkScope (frame : Frame) : Dict Value → Except Fault Unit
  | [] => .ok ()
  | (name, value) :: rest =>
    match Dict.get? frame.types name with
    | some type =>
      if Value.fits type value then checkScope frame rest
      else .error (.snapshotVariable name frame.id)
    | none => .error (.snapshotVariable name frame.id)

/-- A frame continues into a frame below it, and only a script does. -/
def checkContinuation (below : List UInt64) (frame : Frame) : Except Fault Unit :=
  match frame.continuation with
  | none => .ok ()
  | some c =>
    if frame.root && below.contains c.frame then .ok ()
    else .error (.snapshotContinuation frame.id c.frame)

/-- A frame stands in a group of the story, and its variables and its continuation are right. -/
def checkFrame (story : Story) (below : List UInt64) (frame : Frame) : Except Fault Unit :=
  match story.group frame.group with
  | .error fault => .error fault
  | .ok (_, group) =>
    if group.nodes.length < frame.node then
      .error (.snapshotCursor frame.id frame.node frame.group)
    else
      match checkScope frame frame.scope with
      | .error fault => .error fault
      | .ok _ => checkContinuation below frame

/-- The frames are right and their numbers increase; `below` are the numbers of the frames below,
the nearest first. -/
def checkFrames (story : Story) (below : List UInt64) : List Frame → Except Fault Unit
  | [] => .ok ()
  | frame :: rest =>
    if below.head?.any fun last => frame.id ≤ last then .error .snapshotFrameOrder
    else
      match checkFrame story below frame with
      | .error fault => .error fault
      | .ok _ => checkFrames story (frame.id :: below) rest

/-- The lowest frame is that of a script, and all frames are right. -/
def checkStack (story : Story) (frames : List Frame) : Except Fault Unit :=
  match frames with
  | [] => .error .snapshotNoFrames
  | first :: _ => if first.root then checkFrames story [] frames else .error .snapshotBottomFrame

def checkOptions (choice : String) (options : List ChoiceOption) :
    List ChoiceItem → Except Fault Unit
  | [] => .ok ()
  | item :: rest =>
    if options.any fun option => option.id == item.id then checkOptions choice options rest
    else .error (.snapshotOption item.id choice)

def checkChoice (story : Story) (s : Snapshot) : Except Fault Unit :=
  match s.frames.getLast? with
  | none => .error .snapshotNoFrames
  | some frame =>
    match story.group frame.group with
    | .error fault => .error fault
    | .ok (_, group) =>
      match group.nodes[frame.node]? with
      | some (.choice id _ options) =>
        if id = s.choice then checkOptions id options s.items
        else .error (.snapshotOtherChoice s.choice id)
      | _ => .error .snapshotNoChoice

def checkOnce (story : Story) : Dict (List String) → Except Fault Unit
  | [] => .ok ()
  | (script, _) :: rest =>
    if Dict.contains story.scripts script then checkOnce story rest
    else .error (.snapshotOnceScript script)

def check (story : Story) (s : Snapshot) : Except Fault Unit := do
  if s.schema ≠ currentSchema then throw (.snapshotSchema s.schema)
  if s.version ≠ story.version then throw (.snapshotVersion s.version story.version)
  if !s.waiting then throw .snapshotNotWaiting
  if s.items.isEmpty then throw .snapshotNoItems
  checkItems [] 0 s.items
  checkStack story s.frames
  checkChoice story s
  checkOnce story s.once

/-! ## Restoring -/

def greatestFrame (frames : List Frame) : UInt64 :=
  frames.foldl (fun greatest frame => max greatest frame.id) 0

def restored (s : Snapshot) : Player where
  frames := s.frames.reverse
  pending := some {
    frame := (s.frames.getLast?.map Frame.id).getD 0
    node := s.choice
    items := s.items
    prompt := s.prompt }
  ended := false
  counter := greatestFrame s.frames + 1
  once := s.once.map fun entry => (entry.1, Once.orderKeys entry.2)
  generator := s.rng

end Snapshot

namespace Player

/-- Goes on from a save, whatever was played before. -/
def resume (story : Story) (s : Snapshot) (p : Player) : Except Fault Unit × Player :=
  match s.check story with
  | .ok _ => (.ok (), s.restored)
  | .error fault => (.error fault, p)

end Player
end StoryPlayer
