import StoryPlayer.Proofs.Stored

/-!
# Saves that are written and read again

A save whose parts can be stored is read back from its text.

- `Storable` says of the parts of a save what is needed for that: dictionaries in order, whole
  numbers of 64 bits, and numbers with a property,
- the lemmas `…restores` read the parts back, the lemmas `…faithful` print them without loss,
- `Snapshot.decode_encode` reads the whole save back.
-/

namespace StoryPlayer

open Json (Restores Faithful)

variable {P Q : Float → Prop}

/-! ## Conditions -/

/-- The variables are in order, and so are the maps they hold; all numbers have the property. -/
structure Dict.Storable (P : Float → Prop) (scope : Dict Value) : Prop where
  sorted : Dict.Sorted scope
  values : ∀ entry ∈ scope, entry.2.Sound P

/-- The references are in order, and the node is a number of 64 bits. -/
structure Continuation.Storable (c : Continuation) : Prop where
  node : c.node ≤ Json.maxSignificand
  refs : Dict.Sorted c.refs

structure Frame.Storable (P : Float → Prop) (f : Frame) : Prop where
  node : f.node ≤ Json.maxSignificand
  scope : Dict.Storable P f.scope
  sorted : Dict.Sorted f.types
  types : ∀ entry ∈ f.types, entry.2.Ordered
  continuation : ∀ c ∈ f.continuation, c.Storable

structure Snapshot.Storable (P : Float → Prop) (s : Snapshot) : Prop where
  schema : s.schema = currentSchema
  waiting : s.waiting = true
  cursor : s.cursor.node ≤ Json.maxSignificand
  frames : ∀ f ∈ s.frames, f.Storable P
  scopes : ∀ e ∈ s.scopes, Dict.Storable P e.scope
  continuations : ∀ c ∈ s.continuations, c.Storable
  items : ∀ i ∈ s.items, i.index ≤ Json.maxSignificand
  once : Dict.Sorted s.once

/-! ## Plain parts -/

/-- A word of 64 bits is read back. -/
theorem restores_uint64 (n : UInt64) : Restores Json.asUInt64 (.nat n.toNat) n := by
  simp [Restores, Json.nat, Json.canonical, Json.asUInt64, Json.asNat64]

theorem restores_uint32 (n : UInt32) : Restores Json.asUInt32 (.nat n.toNat) n := by
  have hn : n.toNat < 0x100000000 := n.toNat_lt
  simp [Restores, Json.nat, Json.canonical, Json.asUInt32, hn]

/-- A list of texts is read back. -/
theorem restores_texts (names : List String) :
    Restores (Json.asList Json.asText) (.list (names.map .text)) names :=
  Json.restores_list fun _ _ => rfl

theorem faithful_uint64 (n : UInt64) : Faithful (.nat n.toNat) :=
  .natural (Nat.le_of_lt_succ n.toNat_lt)

theorem faithful_uint32 (n : UInt32) : Faithful (.nat n.toNat) := by
  have hn : n.toNat < 0x100000000 := n.toNat_lt
  exact .natural (Nat.le_trans (Nat.le_of_lt hn) (by decide))

/-- A dictionary is printed without loss if its entries are. -/
theorem faithful_dict {α : Type} {write : α → Json} {d : Dict α}
    (h : ∀ entry ∈ d, Faithful (write entry.2)) : Faithful (Dict.toJson write d) := by
  refine .object fun member hmember => ?_
  rcases List.mem_map.1 hmember with ⟨entry, hentry, rfl⟩
  exact h entry hentry

/-- A list is printed without loss if its items are. -/
theorem faithful_list {α : Type} {write : α → Json} {xs : List α}
    (h : ∀ x ∈ xs, Faithful (write x)) : Faithful (.list (xs.map write)) := by
  refine .list fun item hitem => ?_
  rcases List.mem_map.1 hitem with ⟨x, hx, rfl⟩
  exact h x hx

/-! ## Parts of a save -/

/-- The word for why a frame was entered is read back. -/
theorem Completion.restores (c : Completion) : Restores ofJson (.text c.word) c := by
  simp [Restores, Json.canonical, ofJson, Json.asWord]

/-- Variables are read back, whatever their numbers are. -/
theorem Dict.Storable.restores {scope : Dict Value} (h : Dict.Storable P scope) :
    Restores (Json.asDict Value.ofJson) (Value.dictToJson scope) scope := by
  rw [Value.dictToJson_eq]
  exact Json.restores_dict h.sorted fun entry hentry => (h.values entry hentry).restores

/-- A continuation is read back. -/
theorem Continuation.Storable.restores {c : Continuation} (h : c.Storable) :
    Restores Continuation.ofJson c.toJson c := by
  have hpaths : Restores (Json.asDict Json.asText) (Dict.toJson .text c.refs) c.refs :=
    Json.restores_dict h.refs fun _ _ => rfl
  refine Json.restores_record (show ["resumeFrameId", "nextNodeIndex", "refBindings"].Nodup by
    decide) fun sorted hrecord _ => ?_
  have hframe := hrecord.required "resumeFrameId" rfl (restores_uint64 c.frame)
  have hnode : Json.required sorted "nextNodeIndex" Json.asNat64 = some c.node :=
    hrecord.required "nextNodeIndex" rfl rfl
  have hrefs := hrecord.defaulted "refBindings" [] rfl hpaths
  simp [ofJson, hframe, hnode, hrefs]

/-- An object does not look like a member that was left out. -/
theorem canonical_object_ne_null (members : List (String × Json)) :
    Json.canonical (.object members) ≠ .null := by
  rw [Json.canonical]
  exact Json.noConfusion

/-- A frame is read back. -/
theorem Frame.Storable.restores {f : Frame} (h : f.Storable P) :
    Restores Frame.ofJson f.toJson f := by
  have hdeclared : Restores (Json.asDict ScriptType.ofJson)
      (Dict.toJson ScriptType.toJson f.types) f.types :=
    Json.restores_dict h.sorted fun entry hentry => (h.types entry hentry).restores
  refine Json.restores_record (show ["frameId", "groupId", "nodeIndex", "scope", "varTypes",
    "completion", "scriptRoot", "returnContinuation"].Nodup by decide) fun sorted hrecord _ => ?_
  have hid := hrecord.required "frameId" rfl (restores_uint64 f.id)
  have hgroup : Json.required sorted "groupId" Json.asText = some f.group :=
    hrecord.required "groupId" rfl rfl
  have hnode : Json.required sorted "nodeIndex" Json.asNat64 = some f.node :=
    hrecord.required "nodeIndex" rfl rfl
  have hscope := hrecord.required "scope" rfl h.scope.restores
  have htypes := hrecord.required "varTypes" rfl hdeclared
  have hcompletion := hrecord.required "completion" rfl (Completion.restores f.completion)
  have hroot : Json.required sorted "scriptRoot" Json.asBool = some f.root :=
    hrecord.required "scriptRoot" rfl rfl
  have hcontinuation : Json.optional sorted "returnContinuation" Continuation.ofJson =
      some f.continuation :=
    hrecord.optional "returnContinuation" rfl (fun c _ => canonical_object_ne_null _)
      fun c hc => (h.continuation c hc).restores
  simp [ofJson, hid, hgroup, hnode, hscope, htypes, hcompletion, hroot,
    hcontinuation]

/-- The cursor is read back. -/
theorem Cursor.restores (c : Cursor) : Restores Cursor.ofJson c.toJson c := by
  refine Json.restores_record (show ["groupPath", "nodeIndex"].Nodup by decide)
    fun sorted hrecord _ => ?_
  have hgroups := hrecord.required "groupPath" rfl (restores_texts c.groups)
  have hnode : Json.required sorted "nodeIndex" Json.asNat64 = some c.node :=
    hrecord.required "nodeIndex" rfl rfl
  simp [ofJson, hgroups, hnode]

/-- The variables of a frame are read back where they are repeated. -/
theorem ScopeEntry.restores {e : ScopeEntry} (h : Dict.Storable P e.scope) :
    Restores ScopeEntry.ofJson e.toJson e := by
  refine Json.restores_record (show ["frameId", "groupId", "scope"].Nodup by decide)
    fun sorted hrecord _ => ?_
  have hframe := hrecord.required "frameId" rfl (restores_uint64 e.frame)
  have hgroup : Json.required sorted "groupId" Json.asText = some e.group :=
    hrecord.required "groupId" rfl rfl
  have hscope := hrecord.required "scope" rfl h.restores
  simp [ofJson, hframe, hgroup, hscope]

/-- An item is read back. -/
theorem ChoiceItem.restores (i : ChoiceItem) : Restores ChoiceItem.ofJson i.toJson i := by
  refine Json.restores_record (show ["index", "id", "text"].Nodup by decide)
    fun sorted hrecord _ => ?_
  have hindex : Json.required sorted "index" Json.asNat64 = some i.index :=
    hrecord.required "index" rfl rfl
  have hid : Json.required sorted "id" Json.asText = some i.id := hrecord.required "id" rfl rfl
  have htext : Json.required sorted "text" Json.asText = some i.text :=
    hrecord.required "text" rfl rfl
  simp [ofJson, hindex, hid, htext]

/-! ## Whole saves -/

namespace Snapshot

def members (s : Snapshot) : List (String × Json) :=
  [("schemaVersion", .text s.schema), ("compilerVersion", .text s.version),
    ("cursor", s.cursor.toJson), ("runtimeFrames", .list (s.frames.map Frame.toJson)),
    ("scopeChain", .list (s.scopes.map ScopeEntry.toJson)),
    ("continuations", .list (s.continuations.map Continuation.toJson)),
    ("rngState", .nat s.rng.toNat), ("waitingChoice", .bool s.waiting),
    ("pendingChoiceNodeId", .text s.choice),
    ("pendingChoiceItems", .list (s.items.map ChoiceItem.toJson)),
    ("pendingChoicePromptText", .optionalText s.prompt),
    ("onceStateByScript", Dict.toJson (fun marks => .list (marks.map .text)) s.once)]

/-- No member of a save is named twice. -/
theorem names_nodup (s : Snapshot) : (Dict.keys s.members).Nodup := by
  have hnames : ["schemaVersion", "compilerVersion", "cursor", "runtimeFrames", "scopeChain",
    "continuations", "rngState", "waitingChoice", "pendingChoiceNodeId", "pendingChoiceItems",
    "pendingChoicePromptText", "onceStateByScript"].Nodup := by decide
  exact hnames

variable {s : Snapshot} {sorted : Dict Json}

/-- A save is read back from its canonical form. -/
theorem Storable.restores (h : s.Storable P) : Restores Snapshot.ofJson s.toJson s := by
  refine Json.restores_record s.names_nodup fun sorted hrecord _ => ?_
  have hschema : Json.required sorted "schemaVersion" Json.asText = some s.schema :=
    hrecord.required "schemaVersion" rfl rfl
  have hversion : Json.required sorted "compilerVersion" Json.asText = some s.version :=
    hrecord.required "compilerVersion" rfl rfl
  have hcursor := hrecord.required "cursor" rfl (Cursor.restores s.cursor)
  have hframes := hrecord.required "runtimeFrames" rfl
    (Json.restores_list fun f hf => (h.frames f hf).restores)
  have hscopes := hrecord.defaulted "scopeChain" [] rfl
    (Json.restores_list fun e he => ScopeEntry.restores (h.scopes e he))
  have hcontinuations := hrecord.defaulted "continuations" [] rfl
    (Json.restores_list fun c hc => (h.continuations c hc).restores)
  have hrng := hrecord.required "rngState" rfl (restores_uint32 s.rng)
  have hwaiting : Json.required sorted "waitingChoice" Json.asBool = some s.waiting :=
    hrecord.required "waitingChoice" rfl rfl
  have hchoice : Json.required sorted "pendingChoiceNodeId" Json.asText = some s.choice :=
    hrecord.required "pendingChoiceNodeId" rfl rfl
  have hitems := hrecord.required "pendingChoiceItems" rfl
    (Json.restores_list fun i _ => ChoiceItem.restores i)
  have hprompt : Json.optional sorted "pendingChoicePromptText" Json.asText = some s.prompt :=
    hrecord.optional "pendingChoicePromptText" rfl (fun _ _ => Json.noConfusion) fun _ _ => rfl
  have honce := hrecord.defaulted "onceStateByScript" [] rfl
    (Json.restores_dict h.once fun entry _ => restores_texts entry.2)
  simp [ofJson, hschema, hversion, hcursor, hframes, hscopes, hcontinuations, hrng,
    hwaiting, hchoice, hitems, hprompt, honce]

/-! ## The check of single members -/

/-- An item that is written passes the check of items. -/
theorem itemFits_toJson (i : ChoiceItem) : itemFits (Json.canonical i.toJson) = true := by
  have hnames : ["index", "id", "text"].Nodup := by decide
  have hnames' : (Dict.keys [("index", .nat i.index), ("id", .text i.id),
    ("text", Json.text i.text)]).Nodup := hnames
  rcases Json.exists_record hnames' with ⟨sorted, hsorted, hrecord⟩
  have hindex : Dict.get? sorted "index" = some (.nat i.index) := hrecord.get? "index"
  have hid : Dict.get? sorted "id" = some (.text i.id) := hrecord.get? "id"
  have htext : Dict.get? sorted "text" = some (.text i.text) := hrecord.get? "text"
  rw [ChoiceItem.toJson, hsorted]
  simp [itemFits, hindex, hid, htext, Json.nat, Json.asNat64, Json.asText]

/-- The document of a save passes the check of its shape. -/
theorem Storable.checkShape (h : s.Storable P) :
    checkShape (Json.canonical s.toJson) = .ok () := by
  -- The canonical form keeps every member under its name, where the checks look for it.
  rcases Json.exists_record s.names_nodup with ⟨sorted, hsorted, hrecord⟩
  have hschema : schemaFits sorted = true := by
    have hget : Dict.get? sorted "schemaVersion" = some (.text s.schema) :=
      hrecord.get? "schemaVersion"
    simp [schemaFits, hget, Json.asText, h.schema]
  have hrng : rngFits sorted = true := by
    have hget : Dict.get? sorted "rngState" = some (.nat s.rng.toNat) := hrecord.get? "rngState"
    have hread : Json.asUInt32 (.nat s.rng.toNat) = some s.rng := restores_uint32 s.rng
    simp [rngFits, hget, hread]
  have hwaiting : waitingFits sorted = true := by
    have hget : Dict.get? sorted "waitingChoice" = some (.bool s.waiting) :=
      hrecord.get? "waitingChoice"
    simp [waitingFits, hget, Json.asBool, h.waiting]
  have hitems : itemsFit sorted = true := by
    have hget : Dict.get? sorted "pendingChoiceItems" =
        some (Json.canonical (.list (s.items.map ChoiceItem.toJson))) :=
      hrecord.get? "pendingChoiceItems"
    rw [Json.canonical, Json.canonicalItems_eq] at hget
    simp [itemsFit, hget, itemFits_toJson]
  have hprompt : promptFits sorted = true := by
    have hget : Dict.get? sorted "pendingChoicePromptText" =
        some (Json.canonical (.optionalText s.prompt)) :=
      hrecord.get? "pendingChoicePromptText"
    cases hprompt : s.prompt with
    | none =>
        rw [hprompt] at hget
        simp [promptFits, hget, Json.optionalText, Json.ofOption, Json.canonical]
    | some text =>
        rw [hprompt] at hget
        simp [promptFits, hget, Json.optionalText, Json.ofOption, Json.canonical]
  change Snapshot.checkShape (Json.canonical (.object s.members)) = .ok ()
  rw [hsorted]
  simp [Snapshot.checkShape, hschema, hrng, hwaiting, hitems, hprompt]

/-! ## Texts of saves -/

theorem faithful_optional {α : Type} {write : α → Json} {found : Option α}
    (h : ∀ x ∈ found, Faithful (write x)) : Faithful (.ofOption (found.map write)) := by
  cases found with
  | none => exact .null
  | some x => exact h x rfl

theorem faithful_texts (names : List String) : Faithful (.list (names.map .text)) :=
  faithful_list fun name _ => .text name

/-- Variables are printed without loss if their numbers are read back. -/
theorem faithful_scope {scope : Dict Value} (h : Dict.Storable Json.ReadsBack scope) :
    Faithful (Value.dictToJson scope) := by
  rw [Value.dictToJson_eq]
  exact faithful_dict fun entry hentry => (h.values entry hentry).faithful

theorem faithful_continuation {c : Continuation} (h : c.Storable) : Faithful c.toJson := by
  have hframe := faithful_uint64 c.frame
  have hnode : Faithful (.nat c.node) := .natural h.node
  have hrefs : Faithful (Dict.toJson .text c.refs) := faithful_dict fun _ _ => .text _
  exact .object (by simp [hframe, hnode, hrefs])

/-- A frame is printed without loss if the numbers of its variables are read back. -/
theorem faithful_frame {f : Frame} (h : f.Storable Json.ReadsBack) : Faithful f.toJson := by
  have hid := faithful_uint64 f.id
  have hnode : Faithful (.nat f.node) := .natural h.node
  have hscope := faithful_scope h.scope
  have htypes : Faithful (Dict.toJson ScriptType.toJson f.types) :=
    faithful_dict fun entry hentry => (h.types entry hentry).faithful
  have hcontinuation : Faithful (.ofOption (f.continuation.map Continuation.toJson)) :=
    faithful_optional fun c hc => faithful_continuation (h.continuation c hc)
  exact .object (by simp [hid, hnode, hscope, htypes, hcontinuation, Faithful.text, Faithful.bool])

/-- A save whose numbers are read back can be printed without loss. -/
theorem Storable.faithful (h : s.Storable Json.ReadsBack) : Faithful s.toJson := by
  have hcursor : Faithful s.cursor.toJson := by
    have hgroups := faithful_texts s.cursor.groups
    have hnode : Faithful (.nat s.cursor.node) := .natural h.cursor
    exact .object (by simp [hgroups, hnode])
  have hframes : Faithful (.list (s.frames.map Frame.toJson)) :=
    faithful_list fun f hf => faithful_frame (h.frames f hf)
  have hscopes : Faithful (.list (s.scopes.map ScopeEntry.toJson)) := by
    refine faithful_list fun e he => ?_
    have hframe := faithful_uint64 e.frame
    have hscope := faithful_scope (h.scopes e he)
    exact .object (by simp [hframe, hscope, Faithful.text])
  have hcontinuations : Faithful (.list (s.continuations.map Continuation.toJson)) :=
    faithful_list fun c hc => faithful_continuation (h.continuations c hc)
  have hrng := faithful_uint32 s.rng
  have hitems : Faithful (.list (s.items.map ChoiceItem.toJson)) := by
    refine faithful_list fun i hi => ?_
    have hindex : Faithful (.nat i.index) := .natural (h.items i hi)
    exact .object (by simp [hindex, Faithful.text])
  have hprompt : Faithful (.optionalText s.prompt) :=
    faithful_optional fun text _ => .text text
  have honce : Faithful (Dict.toJson (fun marks => .list (marks.map .text)) s.once) :=
    faithful_dict fun entry _ => faithful_texts entry.2
  exact .object (by simp [hcursor, hframes, hscopes, hcontinuations, hrng, hitems, hprompt, honce,
    Faithful.text, Faithful.bool])

/-! ## Nesting -/

/-- Variables are nested one level deeper than their values. -/
theorem depth_scope_le {scope : Dict Value} {n : Nat}
    (h : ∀ entry ∈ scope, entry.2.toJson.depth ≤ n) : (Value.dictToJson scope).depth ≤ n + 1 := by
  rw [Value.dictToJson_eq]
  exact Json.depth_dict_le h

theorem depth_continuation_le (c : Continuation) : c.toJson.depth ≤ 2 := by
  have hrefs : (Dict.toJson .text c.refs).depth ≤ 0 + 1 :=
    Json.depth_dict_le fun _ _ => Nat.le_refl 0
  exact Json.depth_object_le (by simpa using hrefs)

/-- A frame adds two levels to the values and types of its variables; its continuation is not nested
deeper than that. -/
theorem depth_frame_le {f : Frame} {n : Nat}
    (hscope : ∀ entry ∈ f.scope, entry.2.toJson.depth ≤ n + 1)
    (htypes : ∀ entry ∈ f.types, entry.2.toJson.depth ≤ n + 1) : f.toJson.depth ≤ n + 3 := by
  have hscope' := depth_scope_le hscope
  have htypes' : (Dict.toJson ScriptType.toJson f.types).depth ≤ n + 2 :=
    Json.depth_dict_le htypes
  have hcontinuation : (Json.ofOption (f.continuation.map Continuation.toJson)).depth ≤ n + 2 := by
    cases f.continuation with
    | none => exact Nat.zero_le _
    | some c =>
        have hc := depth_continuation_le c
        exact Nat.le_trans hc (Nat.le_add_left 2 n)
  exact Json.depth_object_le (by
    simpa using ⟨hscope', htypes', hcontinuation⟩)

/-- The nesting of a save is bounded by that of the types and values in it. -/
theorem depth_toJson_le {n : Nat}
    (hframes : ∀ f ∈ s.frames, (∀ entry ∈ f.scope, entry.2.toJson.depth ≤ n + 1) ∧
      ∀ entry ∈ f.types, entry.2.toJson.depth ≤ n + 1)
    (hscopes : ∀ e ∈ s.scopes, ∀ entry ∈ e.scope, entry.2.toJson.depth ≤ n + 1) :
    s.toJson.depth ≤ n + 5 := by
  -- Values occur in frames and scopes only; the other members are shallow.
  have hcursor : s.cursor.toJson.depth ≤ n + 4 := by
    have hgroups : (Json.list (s.cursor.groups.map .text)).depth ≤ 0 + 1 :=
      Json.depth_map_list_le fun _ _ => Nat.le_refl 0
    have hobject : s.cursor.toJson.depth ≤ 2 :=
      Json.depth_object_le (by simpa using hgroups)
    omega
  have hframes' : (Json.list (s.frames.map Frame.toJson)).depth ≤ n + 4 :=
    Json.depth_map_list_le fun f hf => depth_frame_le (hframes f hf).1 (hframes f hf).2
  have hscopes' : (Json.list (s.scopes.map ScopeEntry.toJson)).depth ≤ n + 4 := by
    refine Json.depth_map_list_le fun e he => ?_
    have hscope := depth_scope_le (hscopes e he)
    exact Json.depth_object_le (by simpa using hscope)
  have hcontinuations : (Json.list (s.continuations.map Continuation.toJson)).depth ≤ n + 4 := by
    have hlist : (Json.list (s.continuations.map Continuation.toJson)).depth ≤ 2 + 1 :=
      Json.depth_map_list_le fun c _ => depth_continuation_le c
    omega
  have hitems : (Json.list (s.items.map ChoiceItem.toJson)).depth ≤ n + 4 := by
    have hlist : (Json.list (s.items.map ChoiceItem.toJson)).depth ≤ 0 + 1 + 1 :=
      Json.depth_map_list_le fun i _ => Json.depth_object_le (by simp)
    omega
  have hprompt : (Json.optionalText s.prompt).depth ≤ n + 4 := by
    cases s.prompt with
    | none => exact Nat.zero_le _
    | some text => exact Nat.zero_le _
  have honce : (Dict.toJson (fun marks => .list (marks.map Json.text)) s.once).depth ≤ n + 4 := by
    have hdict : (Dict.toJson (fun marks => .list (marks.map Json.text)) s.once).depth ≤
        0 + 1 + 1 := by
      refine Json.depth_dict_le fun entry _ => ?_
      exact Json.depth_map_list_le fun _ _ => Nat.le_refl 0
    omega
  refine Json.depth_object_le ?_
  simp [hcursor, hframes', hscopes', hcontinuations, hitems, hprompt, honce]

/-! ## Reading back -/

/-- A save whose parts can be stored is read back from its text. -/
theorem Storable.decode_encode (h : s.Storable Json.ReadsBack)
    (hdepth : s.toJson.depth ≤ Json.maxDepth) (words : Json.Words) :
    decode s.encode words = .ok s := by
  have hparse : Json.parseCanonical s.encode = some (Json.canonical s.toJson) := by
    simp [Json.parseCanonical, encode, Json.parse_print h.faithful hdepth]
  have hshape := h.checkShape
  have hread : ofJson (Json.canonical s.toJson) = some s := h.restores
  simp [decode, hparse, ofJsonChecked, hshape, hread]

end Snapshot

end StoryPlayer
