import StoryPlayer.Snapshot.Basic

/-!
# Written form of snapshots

How a save is written and read back.  Before a save is read as a whole, the members that a damaged
save is most likely to have wrong are checked one by one, so that the fault names the member.

- `Snapshot.toJson` and `Snapshot.ofJson`, and the same for its parts,
- `Snapshot.checkShape` is the check of single members,
- `Snapshot.encode` and `Snapshot.decode` for the text of a save.
-/

namespace StoryPlayer

/-- A whole number from `0` to `2 ^ 64 - 1` as a word of 64 bits. -/
def Json.asUInt64 (j : Json) : Option UInt64 :=
  j.asNat64.map UInt64.ofNat

namespace Completion

def word : Completion → String
  | .none => "none"
  | .whileBody => "whileBody"
  | .resumeAfterChild => "resumeAfterChild"

def ofWord? (s : String) : Option Completion :=
  if s = "none" then some .none
  else if s = "whileBody" then some .whileBody
  else if s = "resumeAfterChild" then some .resumeAfterChild
  else Option.none

@[simp] theorem ofWord?_word (c : Completion) : ofWord? c.word = some c := by
  cases c <;> decide

def ofJson (j : Json) : Option Completion :=
  j.asWord.bind ofWord?

end Completion

namespace Continuation

def toJson (c : Continuation) : Json :=
  .object [("resumeFrameId", .nat c.frame.toNat), ("nextNodeIndex", .nat c.node),
    ("refBindings", Dict.toJson .text c.refs)]

def layout : Json.Layout :=
  ⟨["resumeFrameId", "nextNodeIndex", "refBindings"], 2⟩

def ofJson (j : Json) : Option Continuation := do
  let members ← j.asRecord layout
  let frame ← Json.required members "resumeFrameId" Json.asUInt64
  let node ← Json.required members "nextNodeIndex" Json.asNat64
  let refs ← Json.defaulted members "refBindings" [] (Json.asDict Json.asText)
  return { frame, node, refs }

end Continuation

namespace Frame

def toJson (f : Frame) : Json :=
  .object [("frameId", .nat f.id.toNat), ("groupId", .text f.group), ("nodeIndex", .nat f.node),
    ("scope", Value.dictToJson f.scope), ("varTypes", Dict.toJson ScriptType.toJson f.types),
    ("completion", .text f.completion.word), ("scriptRoot", .bool f.root),
    ("returnContinuation", .ofOption (f.continuation.map Continuation.toJson))]

def layout : Json.Layout :=
  ⟨["frameId", "groupId", "nodeIndex", "scope", "varTypes", "completion", "scriptRoot",
    "returnContinuation"], 8⟩

def ofJson (j : Json) : Option Frame := do
  let members ← j.asRecord layout
  let id ← Json.required members "frameId" Json.asUInt64
  let group ← Json.required members "groupId" Json.asText
  let node ← Json.required members "nodeIndex" Json.asNat64
  let scope ← Json.required members "scope" (Json.asDict Value.ofJson)
  let types ← Json.required members "varTypes" (Json.asDict ScriptType.ofJson)
  let completion ← Json.required members "completion" Completion.ofJson
  let root ← Json.required members "scriptRoot" Json.asBool
  let continuation ← Json.optional members "returnContinuation" Continuation.ofJson
  return { id, group, node, scope, types, completion, root, continuation }

end Frame

namespace Cursor

def toJson (c : Cursor) : Json :=
  .object [("groupPath", .list (c.groups.map .text)), ("nodeIndex", .nat c.node)]

def layout : Json.Layout :=
  ⟨["groupPath", "nodeIndex"], 2⟩

def ofJson (j : Json) : Option Cursor := do
  let members ← j.asRecord layout
  let groups ← Json.required members "groupPath" (Json.asList Json.asText)
  let node ← Json.required members "nodeIndex" Json.asNat64
  return { groups, node }

end Cursor

namespace ScopeEntry

def toJson (e : ScopeEntry) : Json :=
  .object [("frameId", .nat e.frame.toNat), ("groupId", .text e.group),
    ("scope", Value.dictToJson e.scope)]

def layout : Json.Layout :=
  ⟨["frameId", "groupId", "scope"], 3⟩

def ofJson (j : Json) : Option ScopeEntry := do
  let members ← j.asRecord layout
  let frame ← Json.required members "frameId" Json.asUInt64
  let group ← Json.required members "groupId" Json.asText
  let scope ← Json.required members "scope" (Json.asDict Value.ofJson)
  return { frame, group, scope }

end ScopeEntry

namespace Snapshot

def toJson (s : Snapshot) : Json :=
  .object [("schemaVersion", .text s.schema), ("compilerVersion", .text s.version),
    ("cursor", s.cursor.toJson), ("runtimeFrames", .list (s.frames.map Frame.toJson)),
    ("scopeChain", .list (s.scopes.map ScopeEntry.toJson)),
    ("continuations", .list (s.continuations.map Continuation.toJson)),
    ("rngState", .nat s.rng.toNat), ("waitingChoice", .bool s.waiting),
    ("pendingChoiceNodeId", .text s.choice),
    ("pendingChoiceItems", .list (s.items.map ChoiceItem.toJson)),
    ("pendingChoicePromptText", .optionalText s.prompt),
    ("onceStateByScript", Dict.toJson (fun marks => .list (marks.map .text)) s.once)]

def layout : Json.Layout :=
  ⟨["schemaVersion", "compilerVersion", "cursor", "runtimeFrames", "scopeChain", "continuations",
    "rngState", "waitingChoice", "pendingChoiceNodeId", "pendingChoiceItems",
    "pendingChoicePromptText", "onceStateByScript"], 11⟩

def ofJson (j : Json) : Option Snapshot := do
  let members ← j.asRecord layout
  let schema ← Json.required members "schemaVersion" Json.asText
  let version ← Json.required members "compilerVersion" Json.asText
  let cursor ← Json.required members "cursor" Cursor.ofJson
  let frames ← Json.required members "runtimeFrames" (Json.asList Frame.ofJson)
  let scopes ← Json.defaulted members "scopeChain" [] (Json.asList ScopeEntry.ofJson)
  let continuations ←
    Json.defaulted members "continuations" [] (Json.asList Continuation.ofJson)
  let rng ← Json.required members "rngState" Json.asUInt32
  let waiting ← Json.required members "waitingChoice" Json.asBool
  let choice ← Json.required members "pendingChoiceNodeId" Json.asText
  let items ← Json.required members "pendingChoiceItems" (Json.asList ChoiceItem.ofJson)
  let prompt ← Json.optional members "pendingChoicePromptText" Json.asText
  let once ←
    Json.defaulted members "onceStateByScript" [] (Json.asDict (Json.asList Json.asText))
  return { schema, version, cursor, frames, scopes, continuations, rng, waiting, choice, items,
           prompt, once }

/-! ## Single members -/

def schemaFits (members : Dict Json) : Bool :=
  ((Dict.get? members "schemaVersion").bind Json.asText) == some currentSchema

/-- The random state is a word of 32 bits. -/
def rngFits (members : Dict Json) : Bool :=
  ((Dict.get? members "rngState").bind Json.asUInt32).isSome

/-- The save was made while waiting for a choice. -/
def waitingFits (members : Dict Json) : Bool :=
  ((Dict.get? members "waitingChoice").bind Json.asBool) == some true

def itemFits (item : Json) : Bool :=
  match item with
  | .object members =>
    ((Dict.get? members "index").bind Json.asNat64).isSome &&
      ((Dict.get? members "id").bind Json.asText).isSome &&
      ((Dict.get? members "text").bind Json.asText).isSome
  | _ => false

def itemsFit (members : Dict Json) : Bool :=
  match Dict.get? members "pendingChoiceItems" with
  | some (.list items) => items.all itemFits
  | _ => false

def promptFits (members : Dict Json) : Bool :=
  match Dict.get? members "pendingChoicePromptText" with
  | none => true
  | some .null => true
  | some (.text _) => true
  | some _ => false

def checkShape (j : Json) : Except Fault Unit :=
  match j with
  | .object members =>
    if !schemaFits members then .error (.snapshotSchemaField currentSchema)
    else if !rngFits members then .error .snapshotRngField
    else if !waitingFits members then .error .snapshotWaitingField
    else if !itemsFit members then .error .snapshotItemsField
    else if !promptFits members then .error .snapshotPromptField
    else .ok ()
  | _ => .error .snapshotNotObject

def ofJsonChecked (words : Json.Words) (j : Json) : Except Fault Snapshot :=
  match checkShape j with
  | .error fault => .error fault
  | .ok () =>
    match ofJson j with
    | some snapshot => .ok snapshot
    | none => .error (.snapshotShape (words.ofDocument j))

def encode (s : Snapshot) : String :=
  s.toJson.print

/-- Reads the text of a save; of repeated names the last counts. -/
def decode (text : String) (words : Json.Words := Json.Words.silent) : Except Fault Snapshot :=
  match Json.parseCanonical text with
  | none => .error (.snapshotNotJson (words.ofText text))
  | some j => ofJsonChecked words j

end Snapshot
end StoryPlayer
