import StoryPlayer.Formula.Interpreter
import StoryPlayer.Proofs.Crossing

/-!
# What a formula reports

After a run the values that were bound for it are compared with what has become of them.  Changed
variables are reported, and a changed document is a fault.  Since values come back from a formula
unchanged, nothing is reported that the run has left alone.

- `LeftAlone` says that a run has not touched what was bound under a name,
- `LeftAlone.not_mem_changes` and `LeftAlone.untouched_ne` are about the two comparisons,
- `outcome` runs a formula in either use, and `values_cross` concludes what it reports.
-/

namespace StoryPlayer
namespace Formula

/-! ## What is left alone -/

/-- All values that are bound under the name are finite, and a run has left them as they were. -/
def LeftAlone (entries : List (String × Value)) (data : List Datum) (name : String) : Prop :=
  ∀ (i : Nat) (value : Value), entries[i]? = some (name, value) →
    value.Finite ∧ data[i]? = some (.ofValue value)

section Checks

variable {entries updates : List (String × Value)} {data : List Datum} {name : String}

/-- What is left alone is left alone among the later entries. -/
theorem LeftAlone.tail {entry : String × Value} {d : Datum}
    (h : LeftAlone (entry :: entries) (d :: data) name) : LeftAlone entries data name :=
  fun i value hentry => h (i + 1) value hentry

/-- What was bound first and left alone has the value it was bound for. -/
theorem LeftAlone.head {value : Value} {d : Datum}
    (h : LeftAlone ((name, value) :: entries) (d :: data) name) : d.toValue = .ok value := by
  rcases h 0 value rfl with ⟨hfinite, hd⟩
  cases hd
  exact Datum.toValue_ofValue hfinite

/-- What is left alone is not among the changes. -/
theorem LeftAlone.not_mem_changes (h : LeftAlone entries data name)
    (hchanges : changes entries data = .ok updates) : name ∉ Dict.keys updates := by
  induction entries generalizing data updates with
  | nil =>
      cases hchanges
      simp [Dict.keys]
  | cons entry rest ih =>
      rcases entry with ⟨first, before⟩
      cases data with
      | nil =>
          cases hchanges
          simp [Dict.keys]
      | cons d data =>
          rcases changes_cons_eq_ok hchanges with ⟨after, others, hafter, hothers, rfl⟩
          have hrest := ih h.tail hothers
          split
          · exact hrest
          · next hchanged =>
            intro hname
            rcases List.mem_cons.1 hname with rfl | hname
            · -- The value comes back as it was, and is equal to itself.
              cases hafter.symm.trans h.head
              exact hchanged (Datum.finite_of_toValue d before hafter).beq_self
            · exact hrest hname

/-- A document that is left alone is not reported as changed. -/
theorem LeftAlone.untouched_ne (h : LeftAlone entries data name) :
    untouched entries data ≠ .error (.globalReadonly name) := by
  induction entries generalizing data with
  | nil => simp [untouched]
  | cons entry rest ih =>
      rcases entry with ⟨first, before⟩
      cases data with
      | nil => simp [untouched]
      | cons d data =>
          rw [untouched]
          split
          · exact ih h.tail
          · next hchanged =>
            intro hfault
            cases hfault
            have hback := h.head
            refine hchanged ?_
            rw [unchanged, hback]
            exact (Datum.finite_of_toValue d before hback).beq_self

/-- To look for changed variables is never blamed on a document. -/
theorem changes_ne_globalReadonly (entries : List (String × Value)) (data : List Datum)
    (name : String) : changes entries data ≠ .error (.globalReadonly name) := by
  induction entries generalizing data with
  | nil => simp [changes]
  | cons entry rest ih =>
      rcases entry with ⟨first, before⟩
      cases data with
      | nil => simp [changes]
      | cons d data =>
          rw [changes]
          split
          · next fault hfault =>
            unfold variableFault
            split
            · simp
            · intro h
              cases h
              exact Datum.toValue_ne_globalReadonly d name hfault
          · split
            · next fault hfault =>
              intro h
              cases h
              exact ih data hfault
            · simp

end Checks

/-! ## Runs -/

/-- Runs a formula in either use; only an expression has a value. -/
def outcome (evaluator : Evaluator) (host : HostFunctions) (use : Use) (source : String)
    (b : Bindings) (generator : UInt32) : Except Fault (Outcome (Option Value)) :=
  match use with
  | .expression => do
    let outcome ← evaluate evaluator host source b generator
    return { outcome with result := some outcome.result }
  | .code => do
    let outcome ← execute evaluator host source b generator
    return { outcome with result := none }

section Runs

variable {evaluator : Evaluator} {host : HostFunctions} {use : Use} {source : String} {b : Bindings}
  {generator : UInt32} {ending : Ending}

/-- The updates of a formula that succeeds are the changes of its run. -/
theorem changes_of_runChecked {o : Outcome Datum}
    (hrun : runText evaluator host use source b generator = .ok ending)
    (h : runChecked evaluator host use source b generator = .ok o) :
    changes b.scope ending.data = .ok o.updates := by
  rcases ok_of_bind h with ⟨found, hrun', hrest⟩
  cases hrun.symm.trans hrun'
  rcases ok_of_bind hrest with ⟨updates, hchanges, hrest⟩
  rcases ok_of_bind hrest with ⟨_, -, hreturn⟩
  cases hreturn
  exact hchanges

/-- The updates of an outcome are the changes that the run has made to the variables. -/
theorem changes_of_outcome {o : Outcome (Option Value)}
    (hrun : runText evaluator host use source b generator = .ok ending)
    (h : outcome evaluator host use source b generator = .ok o) : changes b.scope ending.data = .ok o.updates := by
  cases use with
  | expression =>
      rcases ok_of_bind h with ⟨evaluated, hevaluated, hreturn⟩
      rcases ok_of_bind hevaluated with ⟨checked, hchecked, hrest⟩
      rcases ok_of_bind hrest with ⟨_, -, hresult⟩
      cases hresult
      cases hreturn
      exact changes_of_runChecked hrun hchecked
  | code =>
      rcases ok_of_bind h with ⟨executed, hexecuted, hreturn⟩
      rcases ok_of_bind hexecuted with ⟨checked, hchecked, hresult⟩
      cases hresult
      cases hreturn
      exact changes_of_runChecked hrun hchecked

/-- A run that is not accepted has left a variable without a value, or changed a document. -/
theorem fault_of_runChecked {fault : Fault}
    (hrun : runText evaluator host use source b generator = .ok ending)
    (h : runChecked evaluator host use source b generator = .error fault) :
    changes b.scope ending.data = .error fault ∨
      untouched b.documents (ending.data.drop b.scope.length) = .error fault := by
  rcases error_of_bind h with hfails | ⟨found, hrun', hrest⟩
  · cases hrun.symm.trans hfails
  · cases hrun.symm.trans hrun'
    rcases error_of_bind hrest with hchanges | ⟨updates, -, hrest⟩
    · exact .inl hchanges
    · rcases error_of_bind hrest with huntouched | ⟨_, -, hreturn⟩
      · exact .inr huntouched
      · cases hreturn

/-- The only fault about a document is that the run has changed it. -/
theorem untouched_of_outcome {name : String}
    (hrun : runText evaluator host use source b generator = .ok ending)
    (h : outcome evaluator host use source b generator = .error (.globalReadonly name)) :
    untouched b.documents (ending.data.drop b.scope.length) = .error (.globalReadonly name) := by
  have hchecked : runChecked evaluator host use source b generator = .error (.globalReadonly name) := by
    cases use with
    | expression =>
        rcases error_of_bind h with hevaluated | ⟨_, -, hreturn⟩
        · rcases error_of_bind hevaluated with hchecked | ⟨checked, -, hrest⟩
          · exact hchecked
          · rcases error_of_bind hrest with hresult | ⟨_, -, hreturn⟩
            · cases Datum.toValue_ne_globalReadonly checked.result name hresult
            · cases hreturn
        · cases hreturn
    | code =>
        rcases error_of_bind h with hexecuted | ⟨_, -, hreturn⟩
        · rcases error_of_bind hexecuted with hchecked | ⟨_, -, hreturn⟩
          · exact hchecked
          · cases hreturn
        · cases hreturn
  rcases fault_of_runChecked hrun hchecked with hchanges | huntouched
  · cases changes_ne_globalReadonly _ _ name hchanges
  · exact huntouched

end Runs

/-- Values cross into formulas and back unchanged.  A value comes back as it was if all its numbers
are finite, otherwise a number that is not is refused; so what a run leaves alone is not reported as
an update, nor as a changed document.  What comes back of any datum has finite numbers only, and it
comes back exactly if no part of the datum is foreign; in particular there is no unit in it. -/
theorem values_cross :
    (∀ value : Value, value.Sound (fun _ => True) →
      ((∀ x, value.Holds x → x.isFinite = true) → (Datum.ofValue value).toValue = .ok value) ∧
      ∀ x, value.Holds x → x.isFinite = false →
        ∃ y fault, value.Holds y ∧ y.isFinite = false ∧
          fault = .numberNotFinite (Decimal.Layout.plain.write y) ∧
          fault.code = "ENGINE_VALUE_UNSUPPORTED" ∧
          (Datum.ofValue value).toValue = .error fault) ∧
    (∀ evaluator host use source b generator ending,
      runText evaluator host use source b generator = .ok ending → ∀ name,
        (LeftAlone b.scope ending.data name →
          ∀ o, outcome evaluator host use source b generator = .ok o →
            name ∉ Dict.keys o.updates) ∧
        (LeftAlone b.documents (ending.data.drop b.scope.length) name →
          outcome evaluator host use source b generator ≠ .error (.globalReadonly name))) ∧
    ∀ d : Datum,
      (∀ value, d.toValue = .ok value →
        (∀ x, value.Holds x → x.isFinite = true) ∧ ¬ Datum.unit.Within d) ∧
      ((∃ value, d.toValue = .ok value) ↔ ∀ e : Datum, e.Within d → e.foreign = false) := by
  refine ⟨fun value hordered => ⟨fun hfinite => ?_, fun x hholds hx => ?_⟩,
    fun evaluator host use source b generator ending hrun name =>
      ⟨fun halone o ho => ?_, fun halone h => ?_⟩,
    fun d => ⟨fun value hvalue => ⟨fun x hholds => ?_, fun hunit => ?_⟩, Datum.exists_toValue_iff⟩⟩
  · exact Datum.toValue_ofValue (hordered.mono fun x _ => hfinite x)
  · rcases Datum.refusal_of_number hholds hx with ⟨y, hy, hyx, hback⟩
    exact ⟨y, _, hy, hyx, rfl, rfl, hback⟩
  · exact halone.not_mem_changes (changes_of_outcome hrun ho)
  · exact halone.untouched_ne (untouched_of_outcome hrun h)
  · exact (Datum.finite_of_toValue d value hvalue).of_holds hholds
  · cases Datum.exists_toValue_iff.1 ⟨value, hvalue⟩ _ hunit

def knapsack : Value :=
  .map [("bag", .list [.text "rope", .bool true]), ("weight", .number 12.5)]

/-- A value with a number deep inside that is not finite. -/
def bottomless : Value :=
  .list [.number 1, .map [("depth", .number (1 / 0))]]

/-- Two variables, and a document with a number in it. -/
def campsite : Bindings where
  scope := [("pack", knapsack), ("bag", .list [.text "lamp"])]
  documents := [("rules", .map [("limit", .number 3)])]

/-- A formula puts a number from a document into one variable and declares a variable of its own
under the name of the other: this one and the document are left alone, and only the first is
reported.  A unit deep inside of a datum keeps it from becoming a value. -/
theorem values_cross_campsite :
    let source := "bag.push(rules.limit); let pack = bag;"
    (Datum.ofValue knapsack).toValue = .ok knapsack ∧
    ¬ Datum.unit.Within (.ofValue knapsack) ∧
    (∃ fault, fault.code = "ENGINE_VALUE_UNSUPPORTED" ∧
      (Datum.ofValue bottomless).toValue = .error fault) ∧
    (∃ ending o, runText interpreter .none .code source campsite 7 = .ok ending ∧
      outcome interpreter .none .code source campsite 7 = .ok o ∧
      Dict.keys o.updates = ["bag"] ∧
      LeftAlone campsite.scope ending.data "pack" ∧ "pack" ∉ Dict.keys o.updates ∧
      LeftAlone campsite.documents (ending.data.drop campsite.scope.length) "rules" ∧
      outcome interpreter .none .code source campsite 7 ≠ .error (.globalReadonly "rules")) ∧
    ¬ ∃ value, (Datum.list ⟨[.int 1, .map [("rest", .unit)]]⟩).toValue = .ok value := by
  intro source
  have hknapsack : knapsack.Finite := by
    have hbag : (Value.list [.text "rope", .bool true]).Finite :=
      .list (by simpa using ⟨Value.Sound.text "rope", Value.Sound.bool true⟩)
    have hweight : (Value.number 12.5).Finite := .number rfl
    exact .map (by unfold Dict.Sorted; decide) (by simpa using ⟨hbag, hweight⟩)
  have hrules : (Value.map [("limit", .number 3)]).Finite := by
    have hlimit : (Value.number 3).Finite := .number rfl
    exact .map (List.pairwise_singleton _ _) (by simpa using hlimit)
  have hbottomless : bottomless.Sound fun _ => True := by
    have hdepth : (Value.map [("depth", .number (1 / 0))]).Sound fun _ => True :=
      .map (List.pairwise_singleton _ _) (by simpa using Value.Sound.number trivial)
    exact .list (by simpa using ⟨Value.Sound.number trivial, hdepth⟩)
  have hdepth : bottomless.Holds (1 / 0) :=
    .list (List.mem_cons_of_mem _ List.mem_cons_self) (.map List.mem_cons_self .number)
  have hdata : (runText interpreter .none .code source campsite 7).toOption.map (fun ending =>
      (ending.data[0]?.map (Datum.identical · (.ofValue knapsack)),
        ending.data[2]?.map (Datum.identical · (.ofValue (.map [("limit", .number 3)]))))) =
      some (some true, some true) := by
    decide +kernel
  have hkeys : (outcome interpreter .none .code source campsite 7).toOption.map
      (fun o => Dict.keys o.updates) = some ["bag"] := by
    decide +kernel
  have hsame : ∀ {left : Option Datum} {d : Datum},
      left.map (Datum.identical · d) = some true → left = some d := by
    intro left d h
    rcases Option.map_eq_some_iff.1 h with ⟨other, rfl, hidentical⟩
    rw [Datum.eq_of_identical other d hidentical]
  rcases values_cross with ⟨hback, hruns, hvalues⟩
  have hordered : knapsack.Sound fun _ => True := hknapsack.mono fun _ _ _ => trivial
  have hreturned := (hback knapsack hordered).1 fun x => hknapsack.of_holds
  refine ⟨hreturned, ((hvalues _).1 knapsack hreturned).2, ?_, ?_, fun h => ?_⟩
  · rcases (hback bottomless hbottomless).2 _ hdepth rfl with ⟨_, fault, -, -, -, hcode, hfault⟩
    exact ⟨fault, hcode, hfault⟩
  · cases hrun : runText interpreter .none .code source campsite 7 with
    | error fault =>
        rw [hrun] at hdata
        cases hdata
    | ok ending =>
        cases houtcome : outcome interpreter .none .code source campsite 7 with
        | error fault =>
            rw [houtcome] at hkeys
            cases hkeys
        | ok o =>
            rw [hrun] at hdata
            rw [houtcome] at hkeys
            have hplaces := Prod.mk.inj (Option.some.inj hdata)
            have hpack : LeftAlone campsite.scope ending.data "pack" := by
              rintro (_ | _ | i) value hentry
              · cases hentry
                exact ⟨hknapsack, hsame hplaces.1⟩
              · simp [campsite] at hentry
              · cases hentry
            have hdocument :
                LeftAlone campsite.documents (ending.data.drop campsite.scope.length) "rules" := by
              rintro (_ | i) value hentry
              · cases hentry
                refine ⟨hrules, ?_⟩
                rw [List.getElem?_drop]
                exact hsame hplaces.2
              · cases hentry
            rcases hruns _ _ _ _ _ _ ending hrun "pack" with ⟨hunreported, -⟩
            rcases hruns _ _ _ _ _ _ ending hrun "rules" with ⟨-, hunchanged⟩
            exact ⟨ending, o, rfl, rfl, Option.some.inj hkeys, hpack, hunreported hpack o houtcome,
              hdocument, houtcome ▸ hunchanged hdocument⟩
  · have hforeign := (hvalues _).2.1 h .unit
      (.item (List.mem_cons_of_mem _ List.mem_cons_self) (.entry List.mem_cons_self .whole))
    cases hforeign

end Formula
end StoryPlayer
