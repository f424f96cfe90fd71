import StoryPlayer.Proofs.Outcomes

/-!
# Values that cross into formulas

A formula computes with more than values: its data may be units, ranges, functions and numbers that
are not finite.  A value becomes a datum and comes back unchanged; a datum becomes a value exactly
if nothing in it, at any depth, is of those kinds.

- `Datum.Within` says that a datum is a part of another one, `Datum.foreign` that it stands for no
  value,
- `Datum.exists_toValue_iff` says which data become values,
- `Datum.toValue_ofValue` and `Datum.refusal_of_number` say what comes back of a value,
- `Datum.eq_of_identical` shows that the comparison without conversion finds equal data only.
-/

namespace StoryPlayer
namespace Formula

namespace Datum

/-! ## Parts of data -/

/-- The datum is a part of another one, at any depth, or the other one itself. -/
inductive Within (e : Datum) : Datum → Prop
  | whole : Within e e
  | item {items : List Datum} {item : Datum} :
      item ∈ items → Within e item → Within e (.list ⟨items⟩)
  | entry {entries : List (String × Datum)} {entry : String × Datum} :
      entry ∈ entries → Within e entry.2 → Within e (.map entries)

/-- The datum stands for no value, whatever it is a part of. -/
def foreign : Datum → Bool
  | .unit => true
  | .float x => !x.isFinite
  | .range .. => true
  | .function .. => true
  | .cell _ => true
  | _ => false

/-! ## Data that become values -/

/-- The data of a map are turned into values like those of a list; the names stay. -/
theorem toEntries_eq (entries : List (String × Datum)) :
    toEntries entries =
      (toItems (entries.map Prod.snd)).map fun values => (entries.map Prod.fst).zip values := by
  induction entries with
  | nil => rfl
  | cons entry rest ih =>
      rcases entry with ⟨name, d⟩
      simp only [toEntries, List.map_cons, toItems, ih]
      cases toValue d with
      | error fault => rfl
      | ok value => cases toItems (rest.map Prod.snd) <;> rfl

/-- A list has a value only if all its items have. -/
theorem exists_of_toItems {items : List Datum} {values : List Value}
    (h : toItems items = .ok values) : ∀ item ∈ items, ∃ value, toValue item = .ok value := by
  induction items generalizing values with
  | nil => simp
  | cons first rest ih =>
      rw [toItems] at h
      split at h
      · cases h
      · next value hvalue =>
        split at h
        · cases h
        · next others hothers =>
          intro item hitem
          rcases List.mem_cons.1 hitem with rfl | hitem
          · exact ⟨value, hvalue⟩
          · exact ih hothers item hitem

/-- All parts of a datum that becomes a value become values, too. -/
theorem Within.exists_toValue {e d : Datum} {value : Value} (hwithin : e.Within d)
    (h : toValue d = .ok value) : ∃ part, toValue e = .ok part := by
  -- A list or a map fails with the first of its parts that fails.
  induction hwithin generalizing value with
  | whole => exact ⟨value, h⟩
  | @item items item hitem _ ih =>
      rw [toValue] at h
      cases hitems : toItems items with
      | error fault => simp [hitems, Except.map] at h
      | ok values =>
          rcases exists_of_toItems hitems item hitem with ⟨_, hvalue⟩
          exact ih hvalue
  | @entry entries entry hentry _ ih =>
      rw [toValue, toEntries_eq] at h
      cases hitems : toItems (entries.map Prod.snd) with
      | error fault => simp [hitems, Except.map] at h
      | ok values =>
          rcases exists_of_toItems hitems entry.2 (List.mem_map_of_mem hentry) with ⟨_, hvalue⟩
          exact ih hvalue

/-- What has a value is not foreign. -/
theorem foreign_of_toValue {e : Datum} {value : Value} (h : toValue e = .ok value) :
    e.foreign = false := by
  cases e with
  | float x =>
      rw [toValue] at h
      split at h
      · next hx => simp [foreign, hx]
      · cases h
  | unit => cases h
  | range low high inclusive => cases h
  | function name curried => cases h
  | cell index => cases h
  | _ => rfl

mutual

/-- A datum that becomes no value has a foreign part, and the fault is that of this part. -/
theorem exists_within_of_toValue (d : Datum) (fault : Fault) (h : toValue d = .error fault) :
    ∃ e, e.Within d ∧ e.foreign = true ∧ toValue e = .error fault := by
  match d with
  | .unit => exact ⟨.unit, .whole, rfl, h⟩
  | .bool b => cases h
  | .int n => cases h
  | .float x =>
      refine ⟨.float x, .whole, ?_, h⟩
      rw [toValue] at h
      split at h
      · cases h
      · next hx => simp [foreign, hx]
  | .char c => cases h
  | .text s => cases h
  -- The fault of a list or of a map is that of its first part that has one.
  | .list ⟨items⟩ =>
      rw [toValue] at h
      cases hitems : toItems items with
      | ok values => simp [hitems, Except.map] at h
      | error other =>
          simp only [hitems, Except.map, Except.error.injEq] at h
          subst h
          rcases exists_within_of_toItems items other hitems with ⟨item, hitem, e, hwithin, he⟩
          exact ⟨e, .item hitem hwithin, he⟩
  | .map entries =>
      rw [toValue] at h
      cases hentries : toEntries entries with
      | ok values => simp [hentries, Except.map] at h
      | error other =>
          simp only [hentries, Except.map, Except.error.injEq] at h
          subst h
          rcases exists_within_of_toEntries entries other hentries with
            ⟨entry, hentry, e, hwithin, he⟩
          exact ⟨e, .entry hentry hwithin, he⟩
  | .range low high inclusive => exact ⟨_, .whole, rfl, h⟩
  | .function name curried => exact ⟨_, .whole, rfl, h⟩
  | .cell index => exact ⟨_, .whole, rfl, h⟩

/-- If a list has no value, then this is the fault of a foreign part of an item. -/
theorem exists_within_of_toItems (items : List Datum) (fault : Fault)
    (h : toItems items = .error fault) :
    ∃ item ∈ items, ∃ e, e.Within item ∧ e.foreign = true ∧ toValue e = .error fault := by
  match items with
  | [] => cases h
  | item :: rest =>
      rw [toItems] at h
      split at h
      · next hfault =>
        cases h
        exact ⟨item, List.mem_cons_self, exists_within_of_toValue item fault hfault⟩
      · split at h
        · next hfault =>
          cases h
          rcases exists_within_of_toItems rest fault hfault with ⟨other, hother, he⟩
          exact ⟨other, List.mem_cons_of_mem _ hother, he⟩
        · cases h

/-- If a map has no value, then this is the fault of a foreign part of an entry. -/
theorem exists_within_of_toEntries (entries : List (String × Datum)) (fault : Fault)
    (h : toEntries entries = .error fault) :
    ∃ entry ∈ entries, ∃ e, e.Within entry.2 ∧ e.foreign = true ∧ toValue e = .error fault := by
  match entries with
  | [] => cases h
  | (name, d) :: rest =>
      rw [toEntries] at h
      split at h
      · next hfault =>
        cases h
        exact ⟨(name, d), List.mem_cons_self, exists_within_of_toValue d fault hfault⟩
      · split at h
        · next hfault =>
          cases h
          rcases exists_within_of_toEntries rest fault hfault with ⟨other, hother, he⟩
          exact ⟨other, List.mem_cons_of_mem _ hother, he⟩
        · cases h

end

/-- A datum becomes a value exactly if no part of it is foreign. -/
theorem exists_toValue_iff {d : Datum} :
    (∃ value, toValue d = .ok value) ↔ ∀ e : Datum, e.Within d → e.foreign = false := by
  constructor
  · rintro ⟨value, hvalue⟩ e hwithin
    rcases hwithin.exists_toValue hvalue with ⟨_, hpart⟩
    exact foreign_of_toValue hpart
  · intro h
    cases hd : toValue d with
    | ok value => exact ⟨value, rfl⟩
    | error fault =>
        rcases exists_within_of_toValue d fault hd with ⟨e, hwithin, hforeign, -⟩
        simp [h e hwithin] at hforeign

/-- The fault of a foreign datum is about a missing value or an unsupported one. -/
theorem code_of_foreign {e : Datum} {fault : Fault} (hforeign : e.foreign = true)
    (h : toValue e = .error fault) :
    fault.code = "ENGINE_UNDEFINED_ASSIGN" ∨ fault.code = "ENGINE_VALUE_UNSUPPORTED" := by
  cases e with
  | unit =>
      cases h
      exact .inl rfl
  | float x =>
      rw [toValue] at h
      split at h
      · cases h
      · cases h
        exact .inr rfl
  | range low high inclusive =>
      cases h
      exact .inr rfl
  | function name curried =>
      cases h
      exact .inr rfl
  | cell index =>
      cases h
      exact .inr rfl
  | _ => cases hforeign

/-- Turning a datum into a value is never blamed on a document. -/
theorem toValue_ne_globalReadonly (d : Datum) (name : String) :
    toValue d ≠ .error (.globalReadonly name) := by
  intro h
  rcases exists_within_of_toValue d _ h with ⟨e, -, hforeign, hfault⟩
  rcases code_of_foreign hforeign hfault with hcode | hcode <;> simp [Fault.code] at hcode

/-! ## Values that come back -/

theorem ofItems_eq (items : List Value) : ofItems items = items.map ofValue := by
  induction items with
  | nil => rfl
  | cons item rest ih => rw [ofItems, ih, List.map_cons]

theorem ofEntries_eq (entries : List (String × Value)) :
    ofEntries entries = entries.map fun entry => (entry.1, ofValue entry.2) := by
  induction entries with
  | nil => rfl
  | cons entry rest ih => rw [ofEntries, ih, List.map_cons]

/-- If every item comes back, the list does. -/
theorem toItems_map {items : List Value} (h : ∀ item ∈ items, toValue (ofValue item) = .ok item) :
    toItems (items.map ofValue) = .ok items := by
  induction items with
  | nil => rfl
  | cons item rest ih =>
      have hrest := ih fun other hother => h other (List.mem_cons_of_mem _ hother)
      simp only [List.map_cons, toItems, h item List.mem_cons_self, hrest]

/-- A finite value comes back unchanged. -/
theorem toValue_ofValue {value : Value} (h : value.Finite) :
    toValue (ofValue value) = .ok value := by
  induction h with
  | bool b => rfl
  | number hx => rw [ofValue, toValue, if_pos hx]
  | text s => rfl
  | list _ ih => rw [ofValue, toValue, ofItems_eq, toItems_map ih, Except.map]
  | @map entries hsorted _ ih =>
      have hvalues : toItems ((entries.map Prod.snd).map ofValue) = .ok (entries.map Prod.snd) :=
        toItems_map fun value hvalue => by
          rcases List.mem_map.1 hvalue with ⟨entry, hentry, rfl⟩
          exact ih entry hentry
      -- The names are put back to the values; the entries are in order already.
      have hentries : toEntries (ofEntries entries) = .ok entries := by
        rw [toEntries_eq, ofEntries_eq]
        simp only [List.map_map, Function.comp_def] at hvalues ⊢
        rw [hvalues, Except.map, ← List.zip_of_prod rfl rfl]
      rw [ofValue, toValue, hentries, Except.map, Dict.ofList_eq hsorted]

/-- The foreign parts of the datum of a value are the numbers of the value that are not finite. -/
theorem number_of_within {e : Datum} {value : Value} (hwithin : e.Within (ofValue value))
    (hforeign : e.foreign = true) : ∃ x, e = .float x ∧ value.Holds x ∧ x.isFinite = false := by
  -- By induction on the way down to the part, which the value follows.
  generalize hd : ofValue value = d at hwithin
  induction hwithin generalizing value with
  | whole =>
      subst hd
      cases value with
      | number x => exact ⟨x, rfl, .number, by simpa [ofValue, foreign] using hforeign⟩
      | _ => cases hforeign
  | @item items item hitem _ ih =>
      cases value with
      | list values =>
          rw [ofValue, ofItems_eq] at hd
          cases hd
          rcases List.mem_map.1 hitem with ⟨inner, hinner, rfl⟩
          rcases ih rfl with ⟨x, he, hholds, hx⟩
          exact ⟨x, he, .list hinner hholds, hx⟩
      | _ => cases hd
  | @entry entries entry hentry _ ih =>
      cases value with
      | map values =>
          rw [ofValue, ofEntries_eq] at hd
          cases hd
          rcases List.mem_map.1 hentry with ⟨inner, hinner, rfl⟩
          rcases ih rfl with ⟨x, he, hholds, hx⟩
          exact ⟨x, he, .map hinner hholds, hx⟩
      | _ => cases hd

/-- The numbers of a value are parts of its datum. -/
theorem within_of_holds {value : Value} {x : Float} (h : value.Holds x) :
    (float x).Within (ofValue value) := by
  induction h with
  | number => exact .whole
  | list hitem _ ih =>
      rw [ofValue, ofItems_eq]
      exact .item (List.mem_map_of_mem hitem) ih
  | map hentry _ ih =>
      rw [ofValue, ofEntries_eq]
      exact .entry (List.mem_map_of_mem hentry) ih

/-- A value with a number that is not finite does not come back; the fault names such a number. -/
theorem refusal_of_number {value : Value} {x : Float} (hholds : value.Holds x)
    (hx : x.isFinite = false) :
    ∃ y, value.Holds y ∧ y.isFinite = false ∧
      toValue (ofValue value) = .error (.numberNotFinite (Decimal.Layout.plain.write y)) := by
  cases hback : toValue (ofValue value) with
  | ok result =>
      have hfinite := exists_toValue_iff.1 ⟨result, hback⟩ _ (within_of_holds hholds)
      simp [foreign, hx] at hfinite
  | error fault =>
      rcases exists_within_of_toValue _ fault hback with ⟨e, hwithin, hforeign, hfault⟩
      rcases number_of_within hwithin hforeign with ⟨y, rfl, hy, hyx⟩
      rw [toValue, hyx] at hfault
      cases hfault
      exact ⟨y, hy, hyx, rfl⟩

/-! ## Identical data -/

/-- Doubles of the same bits are the same. -/
theorem eq_of_toBits {x y : Float} (h : x.toBits = y.toBits) : x = y := by
  rcases x with ⟨⟨_, _⟩⟩
  rcases y with ⟨⟨_, _⟩⟩
  cases h
  rfl

mutual

/-- Data that are written with the same parts are the same. -/
theorem eq_of_identical (a b : Datum) (h : identical a b = true) : a = b := by
  match a with
  | .float x =>
      cases b with
      | float y =>
          -- Doubles are compared by their bits, so one that is not a number equals itself.
          rw [identical, beq_iff_eq] at h
          rw [eq_of_toBits h]
      | _ => simp [identical] at h
  | .list ⟨as⟩ =>
      cases b with
      | list bs =>
          rw [identical] at h
          rw [eq_of_identicalItems as bs.toList h]
      | _ => simp [identical] at h
  | .map as =>
      cases b with
      | map bs =>
          rw [identical] at h
          rw [eq_of_identicalEntries as bs h]
      | _ => simp [identical] at h
  | .function name as =>
      cases b with
      | function other bs =>
          rw [identical, Bool.and_eq_true, beq_iff_eq] at h
          rw [h.1, eq_of_identicalItems as bs h.2]
      | _ => simp [identical] at h
  | .unit => cases b <;> simp_all [identical]
  | .bool _ => cases b <;> simp_all [identical]
  | .int _ => cases b <;> simp_all [identical]
  | .char _ => cases b <;> simp_all [identical]
  | .text _ => cases b <;> simp_all [identical]
  | .range _ _ _ => cases b <;> simp_all [identical]
  | .cell _ => cases b <;> simp_all [identical]

theorem eq_of_identicalItems (as bs : List Datum) (h : identicalItems as bs = true) : as = bs := by
  match as with
  | [] => cases bs <;> simp_all [identicalItems]
  | a :: as =>
      cases bs with
      | nil => simp [identicalItems] at h
      | cons b bs =>
          rw [identicalItems, Bool.and_eq_true] at h
          rw [eq_of_identical a b h.1, eq_of_identicalItems as bs h.2]

theorem eq_of_identicalEntries (as bs : List (String × Datum))
    (h : identicalEntries as bs = true) : as = bs := by
  match as with
  | [] => cases bs <;> simp_all [identicalEntries]
  | (name, a) :: as =>
      cases bs with
      | nil => simp [identicalEntries] at h
      | cons entry bs =>
          rcases entry with ⟨other, b⟩
          rw [identicalEntries, Bool.and_eq_true, Bool.and_eq_true, beq_iff_eq] at h
          rw [h.1.1, eq_of_identical a b h.1.2, eq_of_identicalEntries as bs h.2]

end

end Datum

end Formula
end StoryPlayer
