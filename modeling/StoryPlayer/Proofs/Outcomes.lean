import StoryPlayer.Proofs.Finite
import StoryPlayer.Proofs.Revalued
import StoryPlayer.Proofs.Stored

/-!
# Values that a story computes

Everything that a variable can be given is finite: its maps are in order and its numbers are finite.

- `Value.Finite` says so of a value,
- defaults, parts of values and values with a part replaced are finite,
- `Value.Finite.beq_self` says that such a value is equal to itself,
- `finite_of_toValue` shows it of what leaves a formula, whatever has been computed inside.
-/

namespace StoryPlayer

/-- The maps are in order, and all numbers are finite. -/
abbrev Value.Finite (v : Value) : Prop :=
  v.Sound fun x => x.isFinite = true

namespace Value

/-! ## Defaults -/

theorem defaultFields_eq (fields : List (String × ScriptType)) :
    defaultFields fields = fields.map fun field => (field.1, default field.2) := by
  induction fields with
  | nil => rfl
  | cons field rest ih => simp [defaultFields, ih]

/-- The default of a type has finite numbers and maps in order. -/
theorem finite_default {t : ScriptType} (h : t.Ordered) : (default t).Finite := by
  induction h with
  | primitive p =>
      cases p with
      | number => exact .number rfl
      | string => exact .text ""
      | boolean => exact .bool false
  | array _ _ => exact .list (by simp)
  | map _ _ => exact .map List.Pairwise.nil (by simp)
  | @object typeName fields hsorted _ ih =>
      rw [default, defaultFields_eq]
      refine .map (List.pairwise_map.2 hsorted) fun entry hentry => ?_
      rcases List.mem_map.1 hentry with ⟨field, hfield, rfl⟩
      exact ih field hfield

/-! ## Parts of values -/

variable {v w new : Value} {names : List String}

/-- What names lead to is part of the value. -/
theorem finite_of_lookup (hv : v.Finite) (h : lookup v names = .ok w) : w.Finite := by
  induction names generalizing v with
  | nil =>
      rw [lookup] at h
      cases h
      exact hv
  | cons key rest ih =>
      cases hv with
      | @map entries hsorted hentries =>
          rw [lookup] at h
          split at h
          · next inner hget => exact ih (hentries _ (Dict.mem_of_get? hget)) h
          · cases h
      | _ => cases h

/-- A finite value may be put into a map. -/
theorem finite_insert {entries : Dict Value} {key : String} (hsorted : Dict.Sorted entries)
    (hentries : ∀ entry ∈ entries, entry.2.Finite) (hnew : new.Finite) :
    (Value.map (Dict.insert entries key new)).Finite := by
  refine .map (Dict.sorted_insert hsorted key new) fun entry hentry => ?_
  rcases Dict.mem_of_mem_insert hentry with rfl | hold
  · exact hnew
  · exact hentries entry hold

/-- A part may be replaced by another finite value. -/
theorem finite_of_assign (hv : v.Finite) (hnew : new.Finite) (h : assign v names new = .ok w) :
    w.Finite := by
  induction names generalizing v w with
  | nil =>
      rw [assign] at h
      cases h
      exact hnew
  | cons key rest ih =>
      -- Only a map has something at a key.
      cases hv with
      | @map entries hsorted hentries =>
          cases rest with
          | nil =>
              cases h
              exact finite_insert hsorted hentries hnew
          | cons next rest =>
              rw [assign] at h
              split at h
              · next inner hget =>
                split at h
                · next inner' hassign =>
                  cases h
                  have hinner := ih (hentries _ (Dict.mem_of_get? hget)) hassign
                  exact finite_insert hsorted hentries hinner
                · cases h
              · cases h
      | _ => cases rest <;> cases h

/-! ## Equality -/

theorem sameItems_self {items : List Value} (h : ∀ item ∈ items, same item item = true) :
    sameItems items items = true := by
  induction items with
  | nil => rfl
  | cons item rest ih =>
      have hrest := ih fun other hother => h other (List.mem_cons_of_mem _ hother)
      simp [sameItems, h item List.mem_cons_self, hrest]

theorem sameEntries_self {entries : List (String × Value)}
    (h : ∀ entry ∈ entries, same entry.2 entry.2 = true) : sameEntries entries entries = true := by
  induction entries with
  | nil => rfl
  | cons entry rest ih =>
      rcases entry with ⟨name, value⟩
      have hrest := ih fun other hother => h other (List.mem_cons_of_mem _ hother)
      have hvalue : same value value = true := h (name, value) List.mem_cons_self
      simp [sameEntries, hvalue, hrest]

/-- Only a number can keep a value from being equal to itself. -/
theorem Finite.beq_self {v : Value} (h : v.Finite) : (v == v) = true := by
  change same v v = true
  induction h with
  | bool b => simp [same]
  | number hx => simpa [same] using Double.beq_self hx
  | text s => simp [same]
  | list _ ih =>
      rw [same]
      exact sameItems_self ih
  | map _ _ ih =>
      rw [same]
      exact sameEntries_self ih

end Value

/-! ## Formulas -/

namespace Formula

namespace Datum

theorem finite_of_ok {e : Except Fault (List (String × Value))} {v : Value}
    (h : e.map (fun entries => Value.map (Dict.ofList entries)) = .ok v)
    (he : ∀ entries, e = .ok entries → ∀ entry ∈ entries, entry.2.Finite) : v.Finite := by
  cases e with
  | error fault => cases h
  | ok entries =>
      cases h
      refine .map (Dict.sorted_ofList entries) fun entry hentry => ?_
      exact he entries rfl entry (Dict.mem_of_mem_ofList hentry)

mutual

/-- What leaves a formula is finite. -/
theorem finite_of_toValue (d : Datum) (v : Value) (h : toValue d = .ok v) : v.Finite := by
  match d with
  | .unit => cases h
  | .bool b =>
      cases h
      exact .bool b
  | .int n =>
      cases h
      exact .number (Double.isFinite_double n)
  | .float x =>
      -- Of the doubles only the finite ones become values.
      rw [toValue] at h
      split at h
      · next hx =>
        cases h
        exact .number hx
      · cases h
  | .char c =>
      cases h
      exact .text _
  | .text s =>
      cases h
      exact .text s
  | .list ⟨items⟩ =>
      rw [toValue] at h
      cases hitems : toItems items with
      | error fault =>
          rw [hitems] at h
          cases h
      | ok values =>
          rw [hitems] at h
          cases h
          exact .list (finite_of_toItems items values hitems)
  | .map entries =>
      rw [toValue] at h
      exact finite_of_ok h fun values hvalues => finite_of_toEntries entries values hvalues
  | .range low high inclusive => cases h
  | .function name curried => cases h
  | .cell index => cases h

/-- What a list of data is turned into is finite. -/
theorem finite_of_toItems (items : List Datum) (values : List Value)
    (h : toItems items = .ok values) : ∀ value ∈ values, value.Finite := by
  match items with
  | [] =>
      cases h
      simp
  | item :: rest =>
      rw [toItems] at h
      split at h
      · cases h
      · next first hfirst =>
        split at h
        · cases h
        · next others hothers =>
          cases h
          intro value hvalue
          rcases List.mem_cons.1 hvalue with rfl | hvalue
          · exact finite_of_toValue item _ hfirst
          · exact finite_of_toItems rest others hothers value hvalue

/-- What a map of data is turned into is finite. -/
theorem finite_of_toEntries (entries : List (String × Datum)) (values : List (String × Value))
    (h : toEntries entries = .ok values) : ∀ entry ∈ values, entry.2.Finite := by
  match entries with
  | [] =>
      cases h
      simp
  | (name, datum) :: rest =>
      rw [toEntries] at h
      split at h
      · cases h
      · next first hfirst =>
        split at h
        · cases h
        · next others hothers =>
          cases h
          intro entry hentry
          rcases List.mem_cons.1 hentry with rfl | hentry
          · exact finite_of_toValue datum _ hfirst
          · exact finite_of_toEntries rest others hothers entry hentry

end

end Datum

/-- The first variable has a value, and is among the changes if it is not the value before. -/
theorem changes_cons_eq_ok {name : String} {before : Value} {rest updates : List (String × Value)}
    {d : Datum} {data : List Datum} (h : changes ((name, before) :: rest) (d :: data) = .ok updates) :
    ∃ after others, d.toValue = .ok after ∧ changes rest data = .ok others ∧
      updates = if after == before then others else (name, after) :: others := by
  rw [changes] at h
  split at h
  · cases h
  · next after hafter =>
    split at h
    · cases h
    · next others hothers =>
      cases h
      exact ⟨after, others, hafter, hothers, rfl⟩

/-- Every variable that a formula changes gets a finite value. -/
theorem finite_of_changes {scope updates : List (String × Value)} {data : List Datum}
    (h : changes scope data = .ok updates) : ∀ update ∈ updates, update.2.Finite := by
  induction scope generalizing data updates with
  | nil =>
      cases h
      simp
  | cons entry rest ih =>
      rcases entry with ⟨name, before⟩
      cases data with
      | nil =>
          cases h
          simp
      | cons d data =>
          rcases changes_cons_eq_ok h with ⟨after, others, hafter, hothers, rfl⟩
          intro update hupdate
          split at hupdate
          · exact ih hothers update hupdate
          · rcases List.mem_cons.1 hupdate with rfl | hupdate
            · exact d.finite_of_toValue _ hafter
            · exact ih hothers update hupdate

section Runs

variable {evaluator : Evaluator} {host : HostFunctions} {source : String} {b : Bindings}
  {generator : UInt32}

/-- Changed variables have finite values, whatever the evaluator has done: they are checked one by
one. -/
theorem finite_of_runChecked {use : Use} {outcome : Outcome Datum}
    (h : runChecked evaluator host use source b generator = .ok outcome) :
    ∀ update ∈ outcome.updates, update.2.Finite := by
  rcases ok_of_bind h with ⟨ending, -, hrest⟩
  rcases ok_of_bind hrest with ⟨updates, hchanges, hrest⟩
  rcases ok_of_bind hrest with ⟨_, -, hreturn⟩
  cases hreturn
  exact finite_of_changes hchanges

/-- So has the result of an expression. -/
theorem finite_of_evaluate {outcome : Outcome Value}
    (h : evaluate evaluator host source b generator = .ok outcome) :
    outcome.result.Finite ∧ ∀ update ∈ outcome.updates, update.2.Finite := by
  rcases ok_of_bind h with ⟨checked, hchecked, hrest⟩
  rcases ok_of_bind hrest with ⟨result, hresult, hreturn⟩
  cases hreturn
  exact ⟨Datum.finite_of_toValue _ _ hresult, finite_of_runChecked hchecked⟩

theorem finite_of_execute {outcome : Outcome Unit}
    (h : execute evaluator host source b generator = .ok outcome) :
    ∀ update ∈ outcome.updates, update.2.Finite := by
  rcases ok_of_bind h with ⟨checked, hchecked, hreturn⟩
  cases hreturn
  exact finite_of_runChecked hchecked

end Runs

end Formula
end StoryPlayer
