import StoryPlayer.Fault
import StoryPlayer.Json.Printer
import StoryPlayer.Json.Reader
import StoryPlayer.Script.Basic

/-!
# Written form of scripts

How nodes, groups, scripts and bundles are written as documents and read back.  Writing names every
member, in a fixed order; reading fills in members that may be absent and passes over unknown ones.
What depends on a member that names its kind, such as a node, is read as a whole first.

- `Node.toJson` and `Node.ofJson`, and the same for the other parts,
- `Bundle.encode` and `Bundle.load` for the text of a bundle.
-/

namespace StoryPlayer

def Json.optionalText (s : Option String) : Json :=
  .ofOption (s.map .text)

/-! ## Parts of nodes -/

namespace Declaration

def toJson (d : Declaration) : Json :=
  .object [("name", .text d.name), ("type", d.type.toJson),
    ("initialValueExpr", .optionalText d.initial)]

def layout : Json.Layout :=
  ⟨["name", "type", "initialValueExpr"], 2⟩

/-- Reads a declaration, which is part of a node. -/
def ofJson (j : Json) : Option Declaration := do
  let members ← j.asRecord layout
  let name ← Json.required members "name" Json.asText
  let type ← Json.required members "type" ScriptType.ofPart
  let initial ← Json.optional members "initialValueExpr" Json.asText
  return { name, type, initial }

end Declaration

namespace Param

def toJson (p : Param) : Json :=
  .object [("name", .text p.name), ("type", p.type.toJson), ("isRef", .bool p.byRef)]

def layout : Json.Layout :=
  ⟨["name", "type", "isRef"], 2⟩

/-- Reads a parameter; its type lies five levels deep in a bundle. -/
def ofJson (j : Json) : Option Param := do
  let members ← j.asRecord layout
  let name ← Json.required members "name" Json.asText
  let type ← Json.required members "type" (Json.whole 5 ScriptType.ofJson)
  let byRef ← Json.defaulted members "isRef" false Json.asBool
  return { name, type, byRef }

end Param

namespace Argument

def toJson (a : Argument) : Json :=
  .object [("valueExpr", .text a.source), ("isRef", .bool a.byRef)]

def layout : Json.Layout :=
  ⟨["valueExpr", "isRef"], 1⟩

def ofJson (j : Json) : Option Argument := do
  let members ← j.asRecord layout
  let source ← Json.required members "valueExpr" Json.asText
  let byRef ← Json.defaulted members "isRef" false Json.asBool
  return { source, byRef }

def listOfJson (members : List (String × Json)) : Option (List Argument) :=
  Json.defaulted members "args" [] (Json.asList ofJson)

end Argument

namespace ChoiceOption

def toJson (o : ChoiceOption) : Json :=
  .object [("id", .text o.id), ("text", .text o.text), ("whenExpr", .optionalText o.condition),
    ("once", .bool o.once), ("fallOver", .bool o.fallOver), ("groupId", .text o.group)]

def layout : Json.Layout :=
  ⟨["id", "text", "whenExpr", "once", "fallOver", "groupId"], 6⟩

def ofJson (j : Json) : Option ChoiceOption := do
  let members ← j.asRecord layout
  let id ← Json.required members "id" Json.asText
  let text ← Json.required members "text" Json.asText
  let condition ← Json.optional members "whenExpr" Json.asText
  let once ← Json.defaulted members "once" false Json.asBool
  let fallOver ← Json.defaulted members "fallOver" false Json.asBool
  let group ← Json.required members "groupId" Json.asText
  return { id, text, condition, once, fallOver, group }

end ChoiceOption

/-! ## Nodes -/

namespace Node

/-- The node as a document; a node that cannot be run keeps nothing but that. -/
def toJson : Node → Json
  | .text id value once =>
    .object [("kind", .text "text"), ("id", .text id), ("value", .text value),
      ("once", .bool once)]
  | .code id source =>
    .object [("kind", .text "code"), ("id", .text id), ("code", .text source)]
  | .declare id declaration =>
    .object [("kind", .text "var"), ("id", .text id), ("declaration", declaration.toJson)]
  | .branch id condition yes no =>
    .object [("kind", .text "if"), ("id", .text id), ("whenExpr", .text condition),
      ("thenGroupId", .text yes), ("elseGroupId", .optionalText no)]
  | .loop id condition body =>
    .object [("kind", .text "while"), ("id", .text id), ("whenExpr", .text condition),
      ("bodyGroupId", .text body)]
  | .choice id prompt options =>
    .object [("kind", .text "choice"), ("id", .text id), ("promptText", .optionalText prompt),
      ("options", .list (options.map ChoiceOption.toJson))]
  | .call id target arguments =>
    .object [("kind", .text "call"), ("id", .text id), ("targetScript", .text target),
      ("args", .list (arguments.map Argument.toJson))]
  | .finish id target arguments =>
    .object [("kind", .text "return"), ("id", .text id), ("targetScript", .optionalText target),
      ("args", .list (arguments.map Argument.toJson))]
  | .leave id => .object [("kind", .text "break"), ("id", .text id)]
  | .again id => .object [("kind", .text "continue"), ("id", .text id)]
  | .unknown => .object [("kind", .text "unknown")]

def layout (kind : String) : Json.Layout :=
  if kind = "text" then ⟨["id", "value", "once"], 2⟩
  else if kind = "code" then ⟨["id", "code"], 2⟩
  else if kind = "var" then ⟨["id", "declaration"], 2⟩
  else if kind = "if" then ⟨["id", "whenExpr", "thenGroupId", "elseGroupId"], 3⟩
  else if kind = "while" then ⟨["id", "whenExpr", "bodyGroupId"], 3⟩
  else if kind = "choice" then ⟨["id", "promptText", "options"], 3⟩
  else if kind = "call" then ⟨["id", "targetScript", "args"], 2⟩
  else if kind = "return" then ⟨["id", "targetScript", "args"], 1⟩
  else if kind = "break" then ⟨["id"], 1⟩
  else if kind = "continue" then ⟨["id"], 1⟩
  else ⟨[], 0⟩

def ofMembers (kind : String) (members : List (String × Json)) : Option Node :=
  let text (name : String) := Json.required members name Json.asText
  if kind = "text" then do
    return .text (← text "id") (← text "value") (← Json.defaulted members "once" false Json.asBool)
  else if kind = "code" then do
    return .code (← text "id") (← text "code")
  else if kind = "var" then do
    return .declare (← text "id") (← Json.required members "declaration" Declaration.ofJson)
  else if kind = "if" then do
    return .branch (← text "id") (← text "whenExpr") (← text "thenGroupId")
      (← Json.optional members "elseGroupId" Json.asText)
  else if kind = "while" then do
    return .loop (← text "id") (← text "whenExpr") (← text "bodyGroupId")
  else if kind = "choice" then do
    return .choice (← text "id") (← Json.optional members "promptText" Json.asText)
      (← Json.required members "options" (Json.asList ChoiceOption.ofJson))
  else if kind = "call" then do
    return .call (← text "id") (← text "targetScript") (← Argument.listOfJson members)
  else if kind = "return" then do
    return .finish (← text "id") (← Json.optional members "targetScript" Json.asText)
      (← Argument.listOfJson members)
  else if kind = "break" then do
    return .leave (← text "id")
  else if kind = "continue" then do
    return .again (← text "id")
  else
    some .unknown

def ofJson (j : Json) : Option Node := do
  let (kind, members) ← j.asTagged Json.asText layout
  ofMembers kind members

end Node

/-! ## Groups, scripts and bundles -/

def Dict.toJson {α : Type} (write : α → Json) (d : Dict α) : Json :=
  .object (d.map fun entry => (entry.1, write entry.2))

namespace Group

def toJson (g : Group) : Json :=
  .object [("groupId", .text g.id), ("parentGroupId", .optionalText g.parent),
    ("nodes", .list (g.nodes.map Node.toJson))]

def layout : Json.Layout :=
  ⟨["groupId", "parentGroupId", "nodes"], 3⟩

/-- Reads a group; its nodes lie six levels deep in a bundle. -/
def ofJson (j : Json) : Option Group := do
  let members ← j.asRecord layout
  let id ← Json.required members "groupId" Json.asText
  let parent ← Json.optional members "parentGroupId" Json.asText
  let nodes ← Json.required members "nodes" (Json.asList (Json.whole 6 Node.ofJson))
  return { id, parent, nodes }

end Group

namespace Script

def toJson (s : Script) : Json :=
  .object [("scriptName", .text s.name), ("params", .list (s.params.map Param.toJson)),
    ("rootGroupId", .text s.root), ("groups", Dict.toJson Group.toJson s.groups),
    ("visibleJsonGlobals", .list (s.visibleGlobals.map .text))]

def layout : Json.Layout :=
  ⟨["scriptName", "params", "rootGroupId", "groups", "visibleJsonGlobals"], 4⟩

def ofJson (j : Json) : Option Script := do
  let members ← j.asRecord layout
  let name ← Json.required members "scriptName" Json.asText
  let params ← Json.defaulted members "params" [] (Json.asList Param.ofJson)
  let root ← Json.required members "rootGroupId" Json.asText
  let groups ← Json.required members "groups" (Json.asDict Group.ofJson)
  let visibleGlobals ← Json.defaulted members "visibleJsonGlobals" [] (Json.asList Json.asText)
  return { name, params, root, groups, visibleGlobals }

end Script

namespace Bundle

def toJson (b : Bundle) : Json :=
  .object [("scripts", Dict.toJson Script.toJson b.scripts), ("entryScript", .optionalText b.entry),
    ("globalJson", Value.dictToJson b.globals), ("compilerVersion", .optionalText b.version)]

def layout : Json.Layout :=
  ⟨["scripts", "entryScript", "globalJson", "compilerVersion"], 1⟩

/-- Reads a bundle; its documents lie two levels deep in it. -/
def ofJson (j : Json) : Option Bundle := do
  let members ← j.asRecord layout
  let scripts ← Json.required members "scripts" (Json.asDict Script.ofJson)
  let entry ← Json.optional members "entryScript" Json.asText
  let globals ← Json.defaulted members "globalJson" [] (Json.asDict (Json.whole 2 Value.ofJson))
  let version ← Json.optional members "compilerVersion" Json.asText
  return { scripts, entry, globals, version }

def encode (b : Bundle) : String :=
  b.toJson.print

def load (text : String) (words : Json.Words := Json.Words.silent) : Except Fault Bundle :=
  match (Json.parseForm text).bind ofJson with
  | some bundle => .ok bundle
  | none => .error (.bundleInvalid (words.ofText text))

/-- The script to start with: the one asked for, else `main`. -/
def resolveEntry (scripts : Dict Script) (asked : Option String) : Except Fault String :=
  match asked with
  | some entry => if Dict.contains scripts entry then .ok entry else .error (.entryMissing entry)
  | none => if Dict.contains scripts "main" then .ok "main" else .error .mainMissing

end Bundle
end StoryPlayer
