import StoryPlayer.Proofs.Stored
import StoryPlayer.Proofs.Typing

/-!
# Values of a type

The check whether a value fits a type decides whether the value is of the type.

- `Value.HasType` says what it means to be of a type: maps are looked at through the names that they
  bind, and a map of an object type binds exactly the names of the fields,
- `Value.HasType.fits` and `Value.hasType_of_fits` are the two directions,
- `hasType_decided` joins them, and adds that the default of every type is of the type.
-/

namespace StoryPlayer
namespace Value

inductive HasType : Value → ScriptType → Prop
  | bool (b : Bool) : HasType (.bool b) (.primitive .boolean)
  | number (x : Float) : HasType (.number x) (.primitive .number)
  | text (s : String) : HasType (.text s) (.primitive .string)
  | list {items : List Value} {element : ScriptType} :
      (∀ item ∈ items, HasType item element) → HasType (.list items) (.array element)
  | map {entries : List (String × Value)} {type : ScriptType} :
      (∀ name value, Dict.get? entries name = some value → HasType value type) →
      HasType (.map entries) (.map type)
  | object {entries : List (String × Value)} {typeName : String}
      {fields : List (String × ScriptType)} :
      (∀ name, Dict.contains entries name = Dict.contains fields name) →
      (∀ name type value, Dict.get? fields name = some type → Dict.get? entries name = some value →
        HasType value type) →
      HasType (.map entries) (.object typeName fields)

variable {P : Float → Prop} {type : ScriptType} {value : Value}

/-- A value that fits a type is of the type. -/
theorem hasType_of_fits (htype : type.Proper) (h : fits type value = true) :
    value.HasType type := by
  induction htype generalizing value with
  | primitive name =>
      cases name <;> cases value <;> simp only [fits, Bool.false_eq_true] at h
      · exact .number _
      · exact .text _
      · exact .bool _
  | array _ ih =>
      cases value with
      | list items =>
          rw [fits, List.all_eq_true] at h
          refine .list ?_
          intro item hitem
          exact ih (h item hitem)
      | _ => simp [fits] at h
  | map _ ih =>
      cases value with
      | map entries =>
          rw [fits, List.all_eq_true] at h
          refine .map ?_
          intro name value hget
          exact ih (h (name, value) (Dict.mem_of_get? hget))
      | _ => simp [fits] at h
  | @object typeName fields hnodup _ ih =>
      cases value with
      | map entries =>
          rw [fits, Bool.and_eq_true_iff, beq_iff_eq] at h
          rcases h with ⟨hlength, hfields⟩
          -- Every field is found and there are no more names than fields, so there are no others.
          have hperm := perm_of_fitsFields hfields hlength hnodup
          refine .object ?_ ?_
          · intro name
            rw [Bool.eq_iff_iff, Dict.contains_iff_mem_keys, Dict.contains_iff_mem_keys]
            exact hperm.mem_iff.symm
          · intro name type value htype hvalue
            have hfield : (name, type) ∈ fields := Dict.mem_of_get? htype
            rcases get?_of_fitsFields hfields hfield with ⟨found, hfound, hfits⟩
            cases hvalue.symm.trans hfound
            exact ih _ hfield hfits
      | _ => simp [fits] at h

/-- A value of a type fits the type. -/
theorem HasType.fits (htype : type.Proper) (hvalue : value.Sound P) (h : value.HasType type) :
    Value.fits type value = true := by
  induction h with
  | bool b => simp [Value.fits]
  | number x => simp [Value.fits]
  | text s => simp [Value.fits]
  | list _ ih =>
      cases htype with
      | array helement =>
          cases hvalue with
          | list hitems =>
              rw [Value.fits, List.all_eq_true]
              intro item hitem
              exact ih item hitem helement (hitems item hitem)
  | map _ ih =>
      cases htype with
      | map htype =>
          cases hvalue with
          | map hsorted hentries =>
              rw [Value.fits, List.all_eq_true]
              intro entry hentry
              have hget := Dict.get?_of_mem (Dict.nodup_keys hsorted) hentry
              exact ih _ _ hget htype (hentries entry hentry)
  | @object entries typeName fields hnames _ ih =>
      cases htype with
      | object hnodup hfields =>
          cases hvalue with
          | map hsorted hentries =>
              -- The check only counts the entries; names that do not repeat make up for that.
              have hkeys : ∀ name, name ∈ Dict.keys entries ↔ name ∈ Dict.keys fields := by
                intro name
                rw [← Dict.contains_iff_mem_keys, ← Dict.contains_iff_mem_keys, hnames]
              have hperm : (Dict.keys entries).Perm (Dict.keys fields) :=
                (List.perm_ext_iff_of_nodup (Dict.nodup_keys hsorted) hnodup).2 hkeys
              have hlength : entries.length = fields.length := by
                simpa [Dict.keys] using hperm.length_eq
              rw [Value.fits, hlength, BEq.rfl, Bool.true_and]
              apply fitsFields_of_forall
              intro field hfield
              have hcontains : Dict.contains entries field.1 = true :=
                Dict.contains_iff_mem_keys.2 ((hkeys _).2 (List.mem_map_of_mem hfield))
              rcases Dict.contains_iff_exists.1 hcontains with ⟨value, hget⟩
              refine ⟨value, hget, ih _ _ _ (Dict.get?_of_mem hnodup hfield) hget ?_ ?_⟩
              · exact hfields field hfield
              · exact hentries _ (Dict.mem_of_get? hget)

/-- The check of a value against a type decides whether the value is of the type, and the default of
a type is of the type. -/
theorem hasType_decided (htype : type.Proper) (hvalue : value.Sound fun _ => True) :
    (fits type value = true ↔ value.HasType type) ∧ (default type).HasType type :=
  ⟨⟨hasType_of_fits htype, HasType.fits htype hvalue⟩, hasType_of_fits htype (fits_default htype)⟩

/-- A type with maps, lists and objects inside. -/
def heroSheet : ScriptType :=
  .object "Hero" [("gear", .map (.array (.object "Item" [("name", .string)]))), ("hp", .number)]

def hero : Value :=
  .map [("gear", .map [("belt", .list [.map [("name", .text "rope")]])]), ("hp", .number 3)]

/-- As many entries as the type has fields, one of them under another name. -/
def changeling : Value :=
  .map [("gear", .map []), ("mana", .number 3)]

/-- The hero is of the type, although deep inside of it there are values to check.  The changeling is
not. -/
theorem hasType_decided_heroSheet :
    heroSheet.Proper ∧ hero.Sound (fun _ => True) ∧ changeling.Sound (fun _ => True) ∧
      hero.HasType heroSheet ∧ ¬ changeling.HasType heroSheet ∧
      (default heroSheet).HasType heroSheet := by
  have hitem : (ScriptType.object "Item" [("name", .string)]).Proper :=
    .object (by decide) fun field hfield => by
      cases List.mem_singleton.1 hfield
      exact .primitive .string
  have htype : heroSheet.Proper := by
    refine .object (by decide) ?_
    simpa using ⟨hitem.array.map, ScriptType.Proper.primitive .number⟩
  have hhero : hero.Sound fun _ => True := by
    have hrope : (Value.map [("name", .text "rope")]).Sound fun _ => True :=
      .map (List.pairwise_singleton _ _) (by simpa using Sound.text "rope")
    have hbelt : (Value.map [("belt", .list [.map [("name", .text "rope")]])]).Sound fun _ => True :=
      .map (List.pairwise_singleton _ _) (by simpa using Sound.list (by simpa using hrope))
    refine .map (by unfold Dict.Sorted; decide) ?_
    simpa using ⟨hbelt, Sound.number (x := 3) trivial⟩
  have hchangeling : changeling.Sound fun _ => True := by
    refine .map (by unfold Dict.Sorted; decide) ?_
    simpa using ⟨Sound.map List.Pairwise.nil (by simp), Sound.number (x := 3) trivial⟩
  have hfits : fits heroSheet hero = true := by
    simp [heroSheet, hero, fits, fitsFields, Dict.get?, ScriptType.string, ScriptType.number]
  have hmisfit : ¬ fits heroSheet changeling = true := by
    simp [heroSheet, changeling, fits, fitsFields, Dict.get?]
  have hdecided := hasType_decided htype hhero
  refine ⟨htype, hhero, hchangeling, hdecided.1.1 hfits, fun h => ?_, hdecided.2⟩
  exact hmisfit ((hasType_decided htype hchangeling).1.2 h)

end Value
end StoryPlayer
