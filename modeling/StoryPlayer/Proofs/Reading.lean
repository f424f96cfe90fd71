import StoryPlayer.Proofs.Stored
import StoryPlayer.Proofs.Typing
import StoryPlayer.Script.Codec

/-!
# What is read from documents

- `Json.Comprises` says that members are parts of a document, as those of a record are however it is
  written; `Json.exists_of_required` and its relatives find the one that something was read from,
- `Json.Yields` says that whatever a reader accepts has a property; there is a lemma for every reader
  of members, lists and dictionaries,
- `ScriptType.ordered_of_readJson` shows that the fields of types that are read are in order, and
  bounds a type by the nesting of its document,
- `Script.parts_of_ofJson` and its relatives say from which members the parts of a bundle are read,
- `load_proper` concludes that every story is proper that is made from the text of a bundle.
-/

namespace StoryPlayer

/-! ## Parts of documents -/

namespace Json

variable {α : Type} {read : Json → Option α} {members : List (String × Json)} {name : String}
  {j : Json} {x : α}

/-- The members are parts of the document. -/
def Comprises (j : Json) (members : List (String × Json)) : Prop :=
  ∀ member ∈ members, member.2 ∈ j.parts

/-- The members of a record that is a list are its items. -/
theorem Layout.mem_of_name? {layout : Layout} {items : List Json}
    (h : layout.name? items = some members) {member : String × Json} (hmember : member ∈ members) :
    member.2 ∈ items := by
  unfold Layout.name? at h
  split at h
  · cases h
    exact (List.of_mem_zip hmember).2
  · cases h

theorem comprises_object (members : List (String × Json)) : (Json.object members).Comprises members :=
  fun _ hmember => List.mem_map_of_mem hmember

/-- However a record is written, its members are parts of its document. -/
theorem comprises_of_asRecord {layout : Layout} (h : j.asRecord layout = some members) :
    j.Comprises members := by
  unfold asRecord at h
  split at h
  · cases h
    exact comprises_object members
  · exact fun _ hmember => Layout.mem_of_name? h hmember
  · cases h

/-- So are those of a record with a kind. -/
theorem comprises_of_asTagged {readKind : Json → Option String} {layout : String → Layout}
    {kind : String} (h : j.asTagged readKind layout = some (kind, members)) :
    j.Comprises members := by
  unfold asTagged at h
  split at h
  · rcases Option.bind_eq_some_iff.1 h with ⟨found, -, hrest⟩
    cases hrest
    exact comprises_object members
  · rcases Option.bind_eq_some_iff.1 h with ⟨found, -, hrest⟩
    rcases Option.bind_eq_some_iff.1 hrest with ⟨named, hnamed, hrest⟩
    cases hrest
    -- The first item is the kind.
    exact fun _ hmember => List.mem_cons_of_mem _ (Layout.mem_of_name? hnamed hmember)
  · cases h

/-- What is found under a name is a member. -/
theorem mem_of_member? {value : Json} (h : member? members name = some (some value)) :
    (name, value) ∈ members := by
  unfold member? at h
  split at h
  · cases h
  · next found hfound =>
    cases h
    have hvalue : value ∈ occurrences members name := by simp [hfound]
    rcases List.mem_map.1 hvalue with ⟨member, hmember, rfl⟩
    rcases List.mem_filter.1 hmember with ⟨hkept, hname⟩
    obtain rfl : member.1 = name := by simpa using hname
    exact hkept
  · cases h

/-- What was read from a member that must be there was read from one. -/
theorem exists_of_required (h : required members name read = some x) :
    ∃ member ∈ members, read member.2 = some x := by
  unfold required at h
  split at h
  · next hmember => exact ⟨_, mem_of_member? hmember, h⟩
  · cases h

/-- What was read from a member that may be absent was read from one, or is the default. -/
theorem exists_of_defaulted {fallback : α} (h : defaulted members name fallback read = some x) :
    x = fallback ∨ ∃ member ∈ members, read member.2 = some x := by
  unfold defaulted at h
  split at h
  · next hmember => exact Or.inr ⟨_, mem_of_member? hmember, h⟩
  · cases h
    exact Or.inl rfl
  · cases h

/-- What is read as a whole is nested within the limit. -/
theorem of_whole {outer : Nat} (h : whole outer read j = some x) :
    j.depth + outer ≤ maxDepth ∧ read j = some x := by
  unfold whole at h
  split at h
  · next hwhole =>
    rcases Bool.and_eq_true_iff.1 hwhole with ⟨-, hdepth⟩
    exact ⟨of_decide_eq_true hdepth, h⟩
  · cases h

theorem forall₂_of_mapM {β : Type} {f : β → Option α} {ys : List β} {xs : List α}
    (h : ys.mapM f = some xs) : List.Forall₂ (fun y x => f y = some x) ys xs := by
  induction ys generalizing xs with
  | nil =>
      cases h
      exact List.Forall₂.nil
  | cons y rest ih =>
      rw [List.mapM_cons] at h
      rcases Option.bind_eq_some_iff.1 h with ⟨first, hfirst, h⟩
      rcases Option.bind_eq_some_iff.1 h with ⟨others, hothers, heq⟩
      cases heq
      exact List.Forall₂.cons hfirst (ih hothers)

/-- There are as many results as things, and each was read from one of them. -/
theorem exists_of_mapM {β : Type} {f : β → Option α} {ys : List β} {xs : List α}
    (h : ys.mapM f = some xs) : xs.length = ys.length ∧ ∀ x ∈ xs, ∃ y ∈ ys, f y = some x := by
  have hparts := forall₂_of_mapM h
  refine ⟨hparts.length_eq.symm, fun x hx => ?_⟩
  rcases List.get_of_mem hx with ⟨i, rfl⟩
  have hi : i < ys.length := hparts.length_eq.symm ▸ i.2
  exact ⟨ys.get ⟨i, hi⟩, List.get_mem _ _, hparts.get hi i.2⟩

/-- A list is read item by item. -/
theorem exists_of_asList {xs : List α} (h : asList read j = some xs) :
    ∃ items, j = .list items ∧ xs.length = items.length ∧
      ∀ x ∈ xs, ∃ item ∈ items, read item = some x := by
  unfold asList at h
  split at h
  · next items => exact ⟨items, rfl, exists_of_mapM h⟩
  · cases h

/-- A dictionary is read member by member, and is in order. -/
theorem exists_of_asDict {d : Dict α} (h : asDict read j = some d) :
    ∃ members, j = .object members ∧ Dict.Sorted d ∧
      ∀ entry ∈ d, ∃ member ∈ members, read member.2 = some entry.2 := by
  unfold asDict at h
  split at h
  · next members =>
    rcases Option.map_eq_some_iff.1 h with ⟨bindings, hbindings, rfl⟩
    refine ⟨members, rfl, Dict.sorted_ofList bindings, fun entry hentry => ?_⟩
    -- Of members of one name the last is kept; it was read like the others.
    rcases (exists_of_mapM hbindings).2 entry (Dict.mem_of_mem_ofList hentry) with
      ⟨member, hmember, hread⟩
    rcases Option.map_eq_some_iff.1 hread with ⟨x, hx, rfl⟩
    exact ⟨member, hmember, hx⟩
  · cases h

end Json

/-! ## What readers accept -/

namespace Json

def Yields {α : Type} (read : Json → Option α) (P : α → Prop) : Prop :=
  ∀ j x, read j = some x → P x

namespace Yields

variable {α : Type} {P : α → Prop} {read : Json → Option α} {members : List (String × Json)}
  {name : String} {x : α}

/-- What is read from a member has the property if whatever is read so has. -/
theorem required (h : Yields read P) (hx : Json.required members name read = some x) : P x := by
  rcases exists_of_required hx with ⟨member, -, hread⟩
  exact h _ x hread

theorem defaulted {fallback : α} (h : Yields read P) (hfallback : P fallback)
    (hx : Json.defaulted members name fallback read = some x) : P x := by
  rcases exists_of_defaulted hx with rfl | ⟨member, -, hread⟩
  · exact hfallback
  · exact h _ x hread

theorem whole (h : Yields read P) (outer : Nat) : Yields (Json.whole outer read) P := by
  intro j x hx
  exact h j x (of_whole hx).2

theorem asList (h : Yields read P) : Yields (Json.asList read) fun xs => ∀ x ∈ xs, P x := by
  intro j xs hxs x hx
  rcases exists_of_asList hxs with ⟨items, -, -, hparts⟩
  rcases hparts x hx with ⟨item, -, hread⟩
  exact h item x hread

/-- What is read for the entries has the property, and the entries are in order. -/
theorem asDict (h : Yields read P) :
    Yields (Json.asDict read) fun d => Dict.Sorted d ∧ ∀ entry ∈ d, P entry.2 := by
  intro j d hd
  rcases exists_of_asDict hd with ⟨members, -, hsorted, hparts⟩
  refine ⟨hsorted, fun entry hentry => ?_⟩
  rcases hparts entry hentry with ⟨member, -, hread⟩
  exact h _ _ hread

end Yields
end Json

/-! ## Types -/

namespace ScriptType

/-- A type adds one level to the type inside of it. -/
theorem depth_part_le (kind name : String) (j : Json) :
    (Json.object [("kind", .text kind), (name, j)]).depth ≤ j.depth + 1 :=
  Json.depth_object_le (by simp)

/-- An object type is nested one level deeper than the object of its fields. -/
theorem depth_object_le {typeName : String} {fields : List (String × ScriptType)}
    {members : List (String × Json)} (h : ∀ field ∈ fields, ∃ member ∈ members,
      field.2.toJson.depth ≤ member.2.depth) :
    (ScriptType.object typeName fields).toJson.depth ≤ (Json.object members).depth + 1 := by
  have hpos : 0 < (Json.object members).depth := by
    rw [Json.depth]
    exact Nat.succ_pos _
  have hfields : (Dict.toJson toJson fields).depth ≤ (Json.object members).depth - 1 + 1 := by
    refine Json.depth_dict_le fun field hfield => ?_
    rcases h field hfield with ⟨member, hmember, hdepth⟩
    have hinside := Json.depth_lt_of_mem_members hmember
    omega
  have hwhole : (ScriptType.object typeName fields).toJson.depth ≤
      (Json.object members).depth - 1 + 1 + 1 := by
    rw [toJson_object]
    exact Json.depth_object_le (by simpa using hfields)
  omega

/-- A type is nested no deeper than the document it is read from. -/
theorem ordered_of_readJson {readKind : Json → Option String} {fuel : Nat} {j : Json}
    {t : ScriptType} (h : readJson readKind fuel j = some t) :
    t.Ordered ∧ t.toJson.depth ≤ j.depth := by
  induction fuel generalizing readKind j t with
  | zero => cases h
  | succ fuel ih =>
      rcases Option.bind_eq_some_iff.1 h with ⟨⟨kind, members⟩, hmembers, hrest⟩
      have hparts := Json.comprises_of_asTagged hmembers
      -- The kinds in the order in which they are tried: primitive, array, map, object.
      dsimp only at hrest
      split at hrest
      · rcases Option.bind_eq_some_iff.1 hrest with ⟨word, hword, hrest⟩
        rcases Option.map_eq_some_iff.1 hrest with ⟨name, -, rfl⟩
        rcases Json.exists_of_required hword with ⟨member, hmember, -⟩
        have hinside := Json.depth_lt_of_mem_parts (hparts member hmember)
        refine ⟨.primitive name, ?_⟩
        have hself : (primitive name).toJson.depth = 1 := by cases name <;> rfl
        omega
      · split at hrest
        · rcases Option.map_eq_some_iff.1 hrest with ⟨element, helement, rfl⟩
          rcases Json.exists_of_required helement with ⟨member, hmember, hread⟩
          rcases ih hread with ⟨hordered, hdepth⟩
          have hinside := Json.depth_lt_of_mem_parts (hparts member hmember)
          have hself := depth_part_le "array" "elementType" element.toJson
          rw [toJson]
          exact ⟨.array hordered, by omega⟩
        · split at hrest
          · rcases Option.map_eq_some_iff.1 hrest with ⟨value, hvalue, rfl⟩
            rcases Json.exists_of_required hvalue with ⟨member, hmember, hread⟩
            rcases ih hread with ⟨hordered, hdepth⟩
            have hinside := Json.depth_lt_of_mem_parts (hparts member hmember)
            have hself := depth_part_le "map" "valueType" value.toJson
            rw [toJson]
            exact ⟨.map hordered, by omega⟩
          · split at hrest
            · rcases Option.bind_eq_some_iff.1 hrest with ⟨typeName, -, hrest⟩
              rcases Option.bind_eq_some_iff.1 hrest with ⟨fields, hfields, hrest⟩
              cases hrest
              rcases Json.exists_of_required hfields with ⟨member, hmember, hread⟩
              rcases Json.exists_of_asDict hread with ⟨inner, hinner, hsorted, hentries⟩
              refine ⟨.object hsorted fun field hfield => ?_, ?_⟩
              · rcases hentries field hfield with ⟨part, -, hread⟩
                exact (ih hread).1
              · have hself : (ScriptType.object typeName fields).toJson.depth ≤
                    (Json.object inner).depth + 1 := by
                  refine depth_object_le fun field hfield => ?_
                  rcases hentries field hfield with ⟨part, hpart, hread⟩
                  exact ⟨part, hpart, (ih hread).2⟩
                have hinside := Json.depth_lt_of_mem_parts (hparts member hmember)
                rw [hinner] at hinside
                omega
            · cases hrest

end ScriptType

/-- Names in order are different. -/
theorem ScriptType.Ordered.proper {t : ScriptType} (h : t.Ordered) : t.Proper := by
  induction h with
  | primitive name => exact .primitive name
  | array _ ih => exact .array ih
  | map _ ih => exact .map ih
  | object hsorted _ ih => exact .object (Dict.nodup_keys hsorted) ih

/-- The fields of a type that is read have different names. -/
theorem proper_of_ofJson : Json.Yields ScriptType.ofJson ScriptType.Proper :=
  fun _ _ h => (ScriptType.ordered_of_readJson h).1.proper

/-! ## Scripts and bundles -/

section Parts

variable {j : Json}

/-- The type of a declaration is read from a member of its document. -/
theorem Declaration.parts_of_ofJson {d : Declaration} (h : ofJson j = some d) :
    ∃ members, j.Comprises members ∧
      Json.required members "type" ScriptType.ofPart = some d.type := by
  rcases Option.bind_eq_some_iff.1 h with ⟨members, hmembers, hrest⟩
  rcases Option.bind_eq_some_iff.1 hrest with ⟨name, -, hrest⟩
  rcases Option.bind_eq_some_iff.1 hrest with ⟨type, htype, hrest⟩
  rcases Option.bind_eq_some_iff.1 hrest with ⟨initial, -, hrest⟩
  cases hrest
  exact ⟨members, Json.comprises_of_asRecord hmembers, htype⟩

/-- The type of a parameter is read from a member of its document. -/
theorem Param.parts_of_ofJson {param : Param} (h : ofJson j = some param) :
    ∃ members, j.Comprises members ∧
      Json.required members "type" (Json.whole 5 ScriptType.ofJson) = some param.type := by
  rcases Option.bind_eq_some_iff.1 h with ⟨members, hmembers, hrest⟩
  rcases Option.bind_eq_some_iff.1 hrest with ⟨name, -, hrest⟩
  rcases Option.bind_eq_some_iff.1 hrest with ⟨type, htype, hrest⟩
  rcases Option.bind_eq_some_iff.1 hrest with ⟨byRef, -, hrest⟩
  cases hrest
  exact ⟨members, Json.comprises_of_asRecord hmembers, htype⟩

/-- The nodes of a group are read from a member of its document, each as a whole. -/
theorem Group.parts_of_ofJson {g : Group} (h : ofJson j = some g) :
    ∃ members, j.Comprises members ∧
      Json.required members "nodes" (Json.asList (Json.whole 6 Node.ofJson)) = some g.nodes := by
  rcases Option.bind_eq_some_iff.1 h with ⟨members, hmembers, hrest⟩
  rcases Option.bind_eq_some_iff.1 hrest with ⟨id, -, hrest⟩
  rcases Option.bind_eq_some_iff.1 hrest with ⟨parent, -, hrest⟩
  rcases Option.bind_eq_some_iff.1 hrest with ⟨nodes, hnodes, hrest⟩
  cases hrest
  exact ⟨members, Json.comprises_of_asRecord hmembers, hnodes⟩

/-- Parameters may be absent, groups may not. -/
theorem Script.parts_of_ofJson {s : Script} (h : ofJson j = some s) :
    ∃ members, j.Comprises members ∧
      Json.defaulted members "params" [] (Json.asList Param.ofJson) = some s.params ∧
      Json.required members "groups" (Json.asDict Group.ofJson) = some s.groups := by
  rcases Option.bind_eq_some_iff.1 h with ⟨members, hmembers, hrest⟩
  rcases Option.bind_eq_some_iff.1 hrest with ⟨name, -, hrest⟩
  rcases Option.bind_eq_some_iff.1 hrest with ⟨params, hparams, hrest⟩
  rcases Option.bind_eq_some_iff.1 hrest with ⟨root, -, hrest⟩
  rcases Option.bind_eq_some_iff.1 hrest with ⟨groups, hgroups, hrest⟩
  rcases Option.bind_eq_some_iff.1 hrest with ⟨visibleGlobals, -, hrest⟩
  cases hrest
  exact ⟨members, Json.comprises_of_asRecord hmembers, hparams, hgroups⟩

/-- Scripts must be there, documents may be absent. -/
theorem Bundle.parts_of_ofJson {b : Bundle} (h : ofJson j = some b) :
    ∃ members, j.Comprises members ∧
      Json.required members "scripts" (Json.asDict Script.ofJson) = some b.scripts ∧
      Json.defaulted members "globalJson" [] (Json.asDict (Json.whole 2 Value.ofJson)) =
        some b.globals := by
  rcases Option.bind_eq_some_iff.1 h with ⟨members, hmembers, hrest⟩
  rcases Option.bind_eq_some_iff.1 hrest with ⟨scripts, hscripts, hrest⟩
  rcases Option.bind_eq_some_iff.1 hrest with ⟨entry, -, hrest⟩
  rcases Option.bind_eq_some_iff.1 hrest with ⟨globals, hglobals, hrest⟩
  rcases Option.bind_eq_some_iff.1 hrest with ⟨version, -, hrest⟩
  cases hrest
  exact ⟨members, Json.comprises_of_asRecord hmembers, hscripts, hglobals⟩

/-- A text is accepted because a bundle is read from the document that it stands for. -/
theorem Bundle.exists_of_load {text : String} {words : Json.Words} {b : Bundle}
    (h : load text words = .ok b) :
    ∃ j, Json.parseForm text = some j ∧ ofJson j = some b := by
  unfold load at h
  split at h
  · next found hfound =>
    cases h
    exact Option.bind_eq_some_iff.1 hfound
  · cases h

end Parts

/-- The types of parameters are read, so they are proper. -/
theorem param_proper : Json.Yields Param.ofJson fun param => param.type.Proper := by
  intro j param h
  rcases Param.parts_of_ofJson h with ⟨members, -, htype⟩
  exact (proper_of_ofJson.whole 5).required htype

theorem script_proper :
    Json.Yields Script.ofJson fun script => ∀ param ∈ script.params, param.type.Proper := by
  intro j script h
  rcases Script.parts_of_ofJson h with ⟨members, -, hparams, -⟩
  exact param_proper.asList.defaulted (by simp) hparams

theorem bundle_proper : Json.Yields Bundle.ofJson fun bundle =>
    ∀ entry ∈ bundle.scripts, ∀ param ∈ entry.2.params, param.type.Proper := by
  intro j bundle h
  rcases Bundle.parts_of_ofJson h with ⟨members, -, hscripts, -⟩
  exact (script_proper.asDict.required hscripts).2

/-- A story has the scripts of its bundle. -/
theorem scripts_of_make {bundle : Bundle} {seed : Option UInt32} {host : HostFunctions}
    {evaluator : Formula.Evaluator} {story : Story}
    (h : Story.make bundle seed host evaluator = .ok story) : story.scripts = bundle.scripts := by
  unfold Story.make at h
  split at h
  · cases h
  · split at h
    · cases h
    · cases h
      rfl

/-- Every story that is made from the text of a bundle is proper. -/
theorem load_proper {text : String} {words : Json.Words} {bundle : Bundle} {seed : Option UInt32}
    {host : HostFunctions} {evaluator : Formula.Evaluator} {story : Story}
    (hload : Bundle.load text words = .ok bundle)
    (hmake : Story.make bundle seed host evaluator = .ok story) : story.Proper := by
  rcases Bundle.exists_of_load hload with ⟨j, -, hj⟩
  unfold Story.Proper
  rw [scripts_of_make hmake]
  exact bundle_proper j _ hj

end StoryPlayer
