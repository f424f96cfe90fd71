import StoryPlayer.Fault
import StoryPlayer.Value.Basic

/-!
# Host functions

Functions that the surrounding program lends to the expressions of a story.

- `HostFunctions` lists their names and answers calls,
- `HostFunctions.none` offers none,
- `HostFunctions.reserved?` finds a name that may not be offered.
-/

namespace StoryPlayer

/-- Functions offered to expressions, under the listed names. -/
structure HostFunctions where
  names : List String
  call : String → List Value → Except Fault Value

namespace HostFunctions

def randomName : String := "random"

def mathName : String := "Math"

def none : HostFunctions where
  names := []
  call _ _ := .error .hostRegistryEmpty

def reserved? (host : HostFunctions) : Option String :=
  host.names.find? fun name => name == randomName || name == mathName

end HostFunctions
end StoryPlayer
