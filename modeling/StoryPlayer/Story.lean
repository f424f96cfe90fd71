import StoryPlayer.Formula.Evaluator
import StoryPlayer.Globals
import StoryPlayer.Script.Basic

/-!
# Stories

Everything about a story that does not change while it is played.

- `Story` holds the scripts, the documents, the functions of the host and the evaluator that runs the
  formulas,
- `Story.make` checks that every group belongs to one script,
- `Story.group` finds a group and the script that it belongs to,
- `Story.visible` are the documents that a script may look into.
-/

namespace StoryPlayer

/-- A story as it is played. -/
structure Story where
  scripts : Dict Script
  globals : Globals
  version : String
  seed : UInt32
  host : HostFunctions
  evaluator : Formula.Evaluator

namespace Story

def defaultVersion : String := "player.v1"

def defaultSeed : UInt32 := 1

/-! ## Checks -/

/-- The first group of a script that an earlier script declares too; `owners` maps the groups seen
so far to their scripts. -/
def clash? (script : String) (owners : Dict String) : List String → Option Fault
  | [] => none
  | group :: rest =>
    match Dict.get? owners group with
    | some owner => some (.groupDeclaredTwice group owner script)
    | none => clash? script owners rest

def owned (script : String) (groups : List String) : Dict String :=
  groups.map fun group => (group, script)

def firstClash? (owners : Dict String) : Dict Script → Option Fault
  | [] => none
  | (name, script) :: rest =>
    let groups := Dict.keys script.groups
    match clash? name owners groups with
    | some fault => some fault
    | none => firstClash? (owners ++ owned name groups) rest

def make (bundle : Bundle) (seed : Option UInt32) (host : HostFunctions)
    (evaluator : Formula.Evaluator) : Except Fault Story :=
  match firstClash? [] bundle.scripts with
  | some fault => .error fault
  | none =>
    match host.reserved? with
    | some name => .error (.hostNameReserved name)
    | none =>
      .ok {
        scripts := bundle.scripts
        globals := bundle.globals
        version := bundle.version.getD defaultVersion
        seed := seed.getD defaultSeed
        host := host
        evaluator := evaluator }

/-! ## Groups and documents -/

def findGroup? (group : String) : Dict Script → Option (String × Group)
  | [] => none
  | (name, script) :: rest =>
    match Dict.get? script.groups group with
    | some found => some (name, found)
    | none => findGroup? group rest

def group (story : Story) (id : String) : Except Fault (String × Group) :=
  match findGroup? id story.scripts with
  | some found => .ok found
  | none => .error (.groupNotFound id)

def owner? (story : Story) (group : String) : Option String :=
  (findGroup? group story.scripts).map Prod.fst

def visible (story : Story) (script : String) : Dict Value :=
  match Dict.get? story.scripts script with
  | some script => story.globals.filter fun entry => script.visibleGlobals.contains entry.1
  | none => []

end Story
end StoryPlayer
