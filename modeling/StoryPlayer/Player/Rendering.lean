import StoryPlayer.Player.Variables
import StoryPlayer.Template
import StoryPlayer.Value.Display

/-!
# Texts of a running story

- `Act.render` fills the holes of a template with the values of its expressions, from left to right.
-/

namespace StoryPlayer
namespace Act

/-- Fills holes one after the other; each expression sees what the ones before it have changed. -/
def renderHoles (story : Story) : List (String × String) → Act String
  | [] => return ""
  | (source, text) :: rest => do
    let value ← evaluate story source
    let others ← renderHoles story rest
    return value.display ++ text ++ others

def render (story : Story) (text : String) : Act String := do
  let template := Template.parse text
  let others ← renderHoles story template.holes
  return template.lead ++ others

end Act
end StoryPlayer
