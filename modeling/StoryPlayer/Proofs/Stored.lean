import Mathlib.Data.List.Perm.Subperm
import StoryPlayer.Proofs.Canonical
import StoryPlayer.Proofs.Printed
import StoryPlayer.Snapshot.Codec

/-!
# Values and types that are stored

Values and types are read back from the documents that they are written to.

- `Value.Sound` says that maps are in order and all numbers have a property, `ScriptType.Ordered`
  that the fields of object types are in order,
- `Value.Holds` says that a number occurs in a value,
- `Value.Sound.restores` and `ScriptType.Ordered.restores` read them back,
- `depth_of_fits` bounds the nesting of a value by that of its type.
-/

namespace StoryPlayer

open Json (Restores Faithful)

/-! ## Values -/

namespace Value

/-- The maps in the value are in order, and all its numbers have the property. -/
inductive Sound (P : Float → Prop) : Value → Prop
  | bool (b : Bool) : Sound P (.bool b)
  | number {x : Float} : P x → Sound P (.number x)
  | text (s : String) : Sound P (.text s)
  | list {items : List Value} : (∀ item ∈ items, Sound P item) → Sound P (.list items)
  | map {entries : List (String × Value)} :
      Dict.Sorted entries → (∀ entry ∈ entries, Sound P entry.2) → Sound P (.map entries)

inductive Holds (x : Float) : Value → Prop
  | number : Holds x (.number x)
  | list {items : List Value} {item : Value} :
      item ∈ items → Holds x item → Holds x (.list items)
  | map {entries : List (String × Value)} {entry : String × Value} :
      entry ∈ entries → Holds x entry.2 → Holds x (.map entries)

variable {P Q : Float → Prop} {v : Value}

/-- Only the numbers that occur matter. -/
theorem Sound.mono (h : v.Sound P) (hQ : ∀ x, P x → v.Holds x → Q x) : v.Sound Q := by
  induction h with
  | bool b => exact .bool b
  | number hx => exact .number (hQ _ hx .number)
  | text s => exact .text s
  | list _ ih =>
      refine .list fun item hitem => ih item hitem fun x hx hholds => ?_
      exact hQ x hx (.list hitem hholds)
  | map hsorted _ ih =>
      refine .map hsorted fun entry hentry => ih entry hentry fun x hx hholds => ?_
      exact hQ x hx (.map hentry hholds)

/-- A number that occurs has the property. -/
theorem Sound.of_holds {x : Float} (h : v.Sound P) (hx : v.Holds x) : P x := by
  induction h with
  | bool b => cases hx
  | number hP =>
      cases hx
      exact hP
  | text s => cases hx
  | list _ ih =>
      cases hx with
      | list hitem hinside => exact ih _ hitem hinside
  | map _ _ ih =>
      cases hx with
      | map hentry hinside => exact ih _ hentry hinside

theorem itemsToJson_eq (items : List Value) : itemsToJson items = items.map toJson := by
  induction items with
  | nil => rfl
  | cons item rest ih => simp [itemsToJson, ih]

theorem entriesToJson_eq (entries : List (String × Value)) :
    entriesToJson entries = entries.map fun entry => (entry.1, toJson entry.2) := by
  induction entries with
  | nil => rfl
  | cons entry rest ih => simp [entriesToJson, ih]

/-- A list is written item by item. -/
theorem toJson_list (items : List Value) : toJson (.list items) = .list (items.map toJson) := by
  rw [toJson, itemsToJson_eq]

/-- A map is written like a dictionary. -/
theorem toJson_map (entries : List (String × Value)) :
    toJson (.map entries) = Dict.toJson toJson entries := by
  rw [toJson, entriesToJson_eq]
  rfl

theorem dictToJson_eq (d : Dict Value) : dictToJson d = Dict.toJson toJson d := by
  rw [dictToJson, entriesToJson_eq]
  rfl

theorem itemsOfJson_eq {items : List Value} (h : ∀ item ∈ items, Restores ofJson item.toJson item) :
    itemsOfJson (items.map fun item => Json.canonical item.toJson) = some items := by
  induction items with
  | nil => rfl
  | cons item rest ih =>
      have hitem : ofJson (Json.canonical item.toJson) = some item := h item List.mem_cons_self
      have hrest := ih fun other hother => h other (List.mem_cons_of_mem _ hother)
      simp [itemsOfJson, hitem, hrest]

theorem entriesOfJson_eq {entries : List (String × Value)}
    (h : ∀ entry ∈ entries, Restores ofJson entry.2.toJson entry.2) :
    entriesOfJson (entries.map fun entry => (entry.1, Json.canonical entry.2.toJson)) =
      some entries := by
  induction entries with
  | nil => rfl
  | cons entry rest ih =>
      have hentry : ofJson (Json.canonical entry.2.toJson) = some entry.2 :=
        h entry List.mem_cons_self
      have hrest := ih fun other hother => h other (List.mem_cons_of_mem _ hother)
      simp [entriesOfJson, hentry, hrest]

/-- A value with ordered maps is read back, whatever its numbers are. -/
theorem Sound.restores (h : v.Sound P) : Restores ofJson v.toJson v := by
  induction h with
  | bool b => rfl
  | number _ => rfl
  | text s => rfl
  | @list items _ ih =>
      have hitems := itemsOfJson_eq ih
      unfold Restores
      simp [toJson_list, Json.canonical, Json.canonicalItems_eq, Function.comp_def, ofJson, hitems]
  | @map entries hsorted _ ih =>
      have hentries := entriesOfJson_eq ih
      unfold Restores
      rw [toJson_map, Json.canonical_dict hsorted]
      simp [ofJson, hentries, Dict.ofList_eq hsorted]

/-- A value whose numbers are read back can be printed without loss. -/
theorem Sound.faithful (h : v.Sound Json.ReadsBack) : Faithful v.toJson := by
  induction h with
  | bool b => exact .bool b
  | number hx => exact .real hx
  | text s => exact .text s
  | list _ ih =>
      rw [toJson_list]
      refine .list fun item hitem => ?_
      rcases List.mem_map.1 hitem with ⟨value, hvalue, rfl⟩
      exact ih value hvalue
  | map _ _ ih =>
      rw [toJson_map]
      refine .object fun member hmember => ?_
      rcases List.mem_map.1 hmember with ⟨entry, hentry, rfl⟩
      exact ih entry hentry

end Value

/-! ## Types -/

namespace ScriptType

/-- The fields of object types are in order. -/
inductive Ordered : ScriptType → Prop
  | primitive (name : Primitive) : Ordered (.primitive name)
  | array {element : ScriptType} : Ordered element → Ordered (.array element)
  | map {value : ScriptType} : Ordered value → Ordered (.map value)
  | object {typeName : String} {fields : List (String × ScriptType)} :
      Dict.Sorted fields → (∀ field ∈ fields, Ordered field.2) → Ordered (.object typeName fields)

variable {t : ScriptType}

theorem fieldsToJson_eq (fields : List (String × ScriptType)) :
    fieldsToJson fields = fields.map fun field => (field.1, toJson field.2) := by
  induction fields with
  | nil => rfl
  | cons field rest ih => simp [fieldsToJson, ih]

/-- The fields of an object type are written like a dictionary. -/
theorem toJson_object (typeName : String) (fields : List (String × ScriptType)) :
    toJson (.object typeName fields) =
      .object [("kind", .text "object"), ("typeName", .text typeName),
        ("fields", Dict.toJson toJson fields)] := by
  rw [toJson, fieldsToJson_eq]
  rfl

/-- A type is read back by every reader that knows its kind by the word, with any fuel that covers the
nesting of its document. -/
theorem Ordered.restores_readJson (h : t.Ordered) :
    ∀ {readKind : Json → Option String} (fuel : Nat), (∀ s, readKind (.text s) = some s) →
      (Json.canonical t.toJson).depth ≤ fuel → Restores (readJson readKind fuel) t.toJson t := by
  induction h with
  | primitive p =>
      intro readKind fuel hwords hfuel
      rw [toJson] at hfuel ⊢
      refine Json.restores_record (show ["kind", "name"].Nodup by decide)
        fun sorted hrecord heq => ?_
      rw [heq] at hfuel
      have hkind : Json.required sorted "kind" readKind = some "primitive" :=
        hrecord.required "kind" rfl (hwords _)
      have hname : Json.required sorted "name" Json.asWordWithin = some p.word :=
        hrecord.required "name" rfl rfl
      cases fuel with
      | zero => cases hfuel
      | succ fuel => simp [readJson, Json.asTagged, hkind, hname]
  | @array element _ ih =>
      intro readKind fuel hwords hfuel
      rw [toJson] at hfuel ⊢
      refine Json.restores_record (show ["kind", "elementType"].Nodup by decide)
        fun sorted hrecord heq => ?_
      rw [heq] at hfuel
      have hdepth := hrecord.depth_lt "elementType" (j := element.toJson) rfl
      have hkind : Json.required sorted "kind" readKind = some "array" :=
        hrecord.required "kind" rfl (hwords _)
      cases fuel with
      | zero => cases hfuel
      | succ fuel =>
          have hpart : Restores (readJson (Json.asWordOrPlace kinds) fuel) element.toJson element :=
            ih fuel (fun _ => rfl) (by omega)
          have helement := hrecord.required "elementType" rfl hpart
          simp [readJson, Json.asTagged, hkind, helement]
  | @map value _ ih =>
      intro readKind fuel hwords hfuel
      rw [toJson] at hfuel ⊢
      refine Json.restores_record (show ["kind", "valueType"].Nodup by decide)
        fun sorted hrecord heq => ?_
      rw [heq] at hfuel
      have hdepth := hrecord.depth_lt "valueType" (j := value.toJson) rfl
      have hkind : Json.required sorted "kind" readKind = some "map" :=
        hrecord.required "kind" rfl (hwords _)
      cases fuel with
      | zero => cases hfuel
      | succ fuel =>
          have hpart : Restores (readJson (Json.asWordOrPlace kinds) fuel) value.toJson value :=
            ih fuel (fun _ => rfl) (by omega)
          have hvalue := hrecord.required "valueType" rfl hpart
          simp [readJson, Json.asTagged, hkind, hvalue]
  | @object typeName fields hsorted _ ih =>
      intro readKind fuel hwords hfuel
      rw [toJson_object] at hfuel ⊢
      refine Json.restores_record (show ["kind", "typeName", "fields"].Nodup by decide)
        fun sorted hrecord heq => ?_
      rw [heq] at hfuel
      have hdepth := hrecord.depth_lt "fields" (j := Dict.toJson toJson fields) rfl
      rw [Json.canonical_dict hsorted] at hdepth
      have hkind : Json.required sorted "kind" readKind = some "object" :=
        hrecord.required "kind" rfl (hwords _)
      have hname : Json.required sorted "typeName" Json.asText = some typeName :=
        hrecord.required "typeName" rfl rfl
      cases fuel with
      | zero => cases hfuel
      | succ fuel =>
          -- The fields are nested two levels less deep than the type.
          have hread : ∀ field ∈ fields,
              Restores (readJson (Json.asWordOrPlace kinds) fuel) field.2.toJson field.2 := by
            intro field hfield
            have hmember : (Json.canonical field.2.toJson).depth < _ :=
              Json.depth_lt_of_mem_members (List.mem_map_of_mem
                (f := fun entry : String × ScriptType => (entry.1, Json.canonical entry.2.toJson))
                hfield)
            exact ih field hfield fuel (fun _ => rfl) (by omega)
          have hfields := hrecord.required "fields" rfl (Json.restores_dict hsorted hread)
          simp [readJson, Json.asTagged, hkind, hname, hfields]

/-- A type in order is read back from its canonical form. -/
theorem Ordered.restores (h : t.Ordered) : Restores ofJson t.toJson t :=
  h.restores_readJson _ (fun _ => rfl) (Nat.le_refl _)

/-- Types are made of texts only, so they can always be printed without loss. -/
theorem Ordered.faithful (h : t.Ordered) : Faithful t.toJson := by
  induction h with
  | primitive p =>
      rw [toJson]
      exact .object (by simp [Faithful.text])
  | array _ ih =>
      rw [toJson]
      exact .object (by simp [Faithful.text, ih])
  | map _ ih =>
      rw [toJson]
      exact .object (by simp [Faithful.text, ih])
  | @object typeName fields _ _ ih =>
      rw [toJson_object]
      have hfields : Faithful (Dict.toJson toJson fields) := by
        refine .object fun member hmember => ?_
        rcases List.mem_map.1 hmember with ⟨field, hfield, rfl⟩
        exact ih field hfield
      exact .object (by simp [Faithful.text, hfields])

/-- No type is written without an object. -/
theorem depth_pos (t : ScriptType) : 0 < t.toJson.depth := by
  cases t <;> rw [toJson, Json.depth] <;> exact Nat.succ_pos _

theorem depth_array (element : ScriptType) :
    element.toJson.depth < (array element).toJson.depth := by
  rw [toJson]
  exact @Json.depth_lt_of_mem_members _ ("elementType", _) (by simp)

theorem depth_map (value : ScriptType) : value.toJson.depth < (map value).toJson.depth := by
  rw [toJson]
  exact @Json.depth_lt_of_mem_members _ ("valueType", _) (by simp)

/-- The fields are nested less deep than the type. -/
theorem depth_fields (typeName : String) (fields : List (String × ScriptType)) :
    (Dict.toJson toJson fields).depth < (object typeName fields).toJson.depth := by
  rw [toJson_object]
  exact @Json.depth_lt_of_mem_members _ ("fields", _) (by simp [Dict.toJson])

/-- The fields of an object type are held by an object of their own. -/
theorem depth_field (typeName : String) {fields : List (String × ScriptType)}
    {field : String × ScriptType} (h : field ∈ fields) :
    field.2.toJson.depth + 1 < (object typeName fields).toJson.depth := by
  have hfield : field.2.toJson.depth < (Dict.toJson toJson fields).depth :=
    @Json.depth_lt_of_mem_members _ (field.1, field.2.toJson) (List.mem_map.2 ⟨field, h, rfl⟩)
  have hfields := depth_fields typeName fields
  omega

theorem depth_object_pos (typeName : String) (fields : List (String × ScriptType)) :
    1 < (object typeName fields).toJson.depth := by
  have hinner : 0 < (Dict.toJson toJson fields).depth := by
    rw [Dict.toJson, Json.depth]
    exact Nat.succ_pos _
  have hfields := depth_fields typeName fields
  omega

end ScriptType

/-! ## Values of a type -/

namespace Value

variable {P : Float → Prop}

/-- An object has a value of the type for each of its fields. -/
theorem get?_of_fitsFields {fields : List (String × ScriptType)} {entries : List (String × Value)}
    (h : fitsFields fields entries = true) {field : String × ScriptType} (hfield : field ∈ fields) :
    ∃ value, Dict.get? entries field.1 = some value ∧ fits field.2 value = true := by
  induction fields with
  | nil => cases hfield
  | cons first rest ih =>
      rcases first with ⟨name, type⟩
      rw [fitsFields, Bool.and_eq_true_iff] at h
      rcases List.mem_cons.1 hfield with rfl | hlater
      · cases hget : Dict.get? entries name with
        | none => simp [hget] at h
        | some value => exact ⟨value, rfl, by simpa [hget] using h.1⟩
      · exact ih h.2 hlater

/-- A map of an object type binds the names of the fields and no others. -/
theorem perm_of_fitsFields {fields : List (String × ScriptType)} {entries : List (String × Value)}
    (h : fitsFields fields entries = true) (hlength : entries.length = fields.length)
    (hfields : (Dict.keys fields).Nodup) : (Dict.keys fields).Perm (Dict.keys entries) := by
  -- Every field has an entry, and there are as many of them: no entry is left over.
  have hsub : Dict.keys fields ⊆ Dict.keys entries := by
    intro name hname
    rcases List.mem_map.1 hname with ⟨field, hfield, rfl⟩
    rcases get?_of_fitsFields h hfield with ⟨value, hget, -⟩
    exact List.mem_map.2 ⟨_, Dict.mem_of_get? hget, rfl⟩
  refine (List.subperm_of_subset hfields hsub).perm_of_length_le ?_
  simp [Dict.keys, hlength]

/-- A map of an object type has entries for fields only. -/
theorem field_of_fitsFields {fields : List (String × ScriptType)} {entries : List (String × Value)}
    (h : fitsFields fields entries = true) (hlength : entries.length = fields.length)
    (hfields : Dict.Sorted fields) (hentries : Dict.Sorted entries) {entry : String × Value}
    (hentry : entry ∈ entries) : ∃ field ∈ fields, fits field.2 entry.2 = true := by
  have hperm := perm_of_fitsFields h hlength (Dict.nodup_keys hfields)
  have hname : entry.1 ∈ Dict.keys fields := hperm.mem_iff.2 (List.mem_map_of_mem hentry)
  rcases List.mem_map.1 hname with ⟨field, hfield, hsame⟩
  rcases get?_of_fitsFields h hfield with ⟨value, hget, hfits⟩
  have hvalue : Dict.get? entries entry.1 = some entry.2 :=
    Dict.get?_of_mem (Dict.nodup_keys hentries) hentry
  rw [hsame, hvalue] at hget
  cases hget
  exact ⟨field, hfield, hfits⟩

theorem depth_list_le {items : List Value} {n : Nat} (hn : 0 < n)
    (h : ∀ item ∈ items, item.toJson.depth < n) : (toJson (.list items)).depth ≤ n := by
  have hbound : (Json.list (items.map toJson)).depth ≤ n - 1 + 1 :=
    Json.depth_map_list_le fun item hitem => Nat.le_sub_one_of_lt (h item hitem)
  rw [toJson_list]
  omega

theorem depth_map_le {entries : List (String × Value)} {n : Nat} (hn : 0 < n)
    (h : ∀ entry ∈ entries, entry.2.toJson.depth < n) : (toJson (.map entries)).depth ≤ n := by
  have hbound : (Dict.toJson toJson entries).depth ≤ n - 1 + 1 :=
    Json.depth_dict_le fun entry hentry => Nat.le_sub_one_of_lt (h entry hentry)
  rw [toJson_map]
  omega

/-- A value is nested less deep than the document of its type. -/
theorem depth_of_fits {t : ScriptType} (ht : t.Ordered) {v : Value} (hv : v.Sound P)
    (h : fits t v = true) : v.toJson.depth < t.toJson.depth := by
  induction ht generalizing v with
  | primitive p =>
      have hflat : v.toJson.depth = 0 := by
        cases v with
        | bool b => rfl
        | number x => rfl
        | text s => rfl
        | list items => cases p <;> simp [fits] at h
        | map entries => cases p <;> simp [fits] at h
      rw [hflat]
      exact ScriptType.depth_pos _
  | @array element _ ih =>
      cases hv with
      | @list items hitems =>
          rw [fits, List.all_eq_true] at h
          have hbound := depth_list_le element.depth_pos fun item hitem =>
            ih (hitems item hitem) (h item hitem)
          exact Nat.lt_of_le_of_lt hbound element.depth_array
      | _ => simp [fits] at h
  | @map type _ ih =>
      cases hv with
      | @map entries _ hentries =>
          rw [fits, List.all_eq_true] at h
          have hbound := depth_map_le type.depth_pos fun entry hentry =>
            ih (hentries entry hentry) (h entry hentry)
          exact Nat.lt_of_le_of_lt hbound type.depth_map
      | _ => simp [fits] at h
  | @object typeName fields hsorted _ ih =>
      cases hv with
      | @map entries hsorted' hentries =>
          rw [fits, Bool.and_eq_true_iff] at h
          have hlength : entries.length = fields.length := by simpa using h.1
          -- Every entry has the type of a field, which is nested two levels less deep.
          have hbelow : ∀ entry ∈ entries,
              entry.2.toJson.depth < (ScriptType.object typeName fields).toJson.depth - 1 := by
            intro entry hentry
            rcases field_of_fitsFields h.2 hlength hsorted hsorted' hentry with
              ⟨field, hfield, hfits⟩
            have hvalue := ih field hfield (hentries entry hentry) hfits
            have htype := ScriptType.depth_field typeName hfield
            omega
          have hpos := ScriptType.depth_object_pos typeName fields
          have hbound := depth_map_le (by omega) hbelow
          omega
      | _ => simp [fits] at h

end Value
end StoryPlayer
