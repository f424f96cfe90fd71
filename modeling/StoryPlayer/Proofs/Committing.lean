import StoryPlayer.Proofs.Scoping
import StoryPlayer.Proofs.Tidy

/-!
# What a formula commits

- `Frames.updated` says for every frame at once what writing a list of updates amounts to; the
  updates that `Frames.commit` writes one by one are written so,
- `Formula.Ending.held?` is what a run has left of a value that was bound for it; `changes` and
  `untouched` compare it with the value before,
- `Frames.Committed` is the effect of a formula on the stack, and `formula_commits` shows that
  formulas have it, or none.
-/

namespace StoryPlayer

/-! ## Writing updates -/

namespace Frames

/-- The value of a variable after updates; the names in `seen` are those of other variables, declared
further inside. -/
def update (updates : List (String × Value)) (seen : List String) (name : String) (before : Value) :
    Value :=
  if name ∈ seen then before else (Dict.get? updates name).getD before

/-- The frames with updates written to the innermost variables of their names. -/
def updated (updates : List (String × Value)) (seen : List String) : List Frame → List Frame
  | [] => []
  | frame :: below =>
    { frame with
      scope := frame.scope.map fun entry => (entry.1, update updates seen entry.1 entry.2) } ::
      updated updates (seen ++ Dict.keys frame.scope) below

variable {updates : List (String × Value)} {seen : List String} {frames : List Frame}

/-- Updates of names that were declared further inside change nothing here. -/
theorem updated_eq_self (h : ∀ name ∈ Dict.keys updates, name ∈ seen) :
    updated updates seen frames = frames := by
  induction frames generalizing seen with
  | nil => rfl
  | cons frame below ih =>
      have hupdate : ∀ entry ∈ frame.scope,
          (entry.1, update updates seen entry.1 entry.2) = entry := by
        intro entry _
        by_cases hname : entry.1 ∈ seen
        · simp [update, hname]
        · simp [update, hname, Dict.get?_eq_none fun hkey => hname (h entry.1 hkey)]
      rw [updated, ih fun name hname => List.mem_append_left _ (h name hname),
        List.map_congr_left hupdate, List.map_id']

/-- One update is written to the innermost frame that declares its name. -/
theorem set_eq_updated {name : String} {value : Value}
    (hsorted : ∀ f ∈ frames, Dict.Sorted f.scope) (hname : name ∉ seen) :
    set name value frames = updated [(name, value)] seen frames := by
  induction frames generalizing seen with
  | nil => rfl
  | cons frame below ih =>
      have hupdate : ∀ entry : String × Value,
          (entry.1, update [(name, value)] seen entry.1 entry.2) =
            if entry.1 = name then (name, value) else entry := by
        intro entry
        by_cases heq : entry.1 = name
        · simp [update, heq, hname, Dict.get?]
        · simp [update, Ne.symm heq, heq, Dict.get?]
      simp only [set, updated, hupdate]
      split
      · next hcontains =>
        -- To the frames below the name is one that is declared further inside.
        have hkey := Dict.contains_iff_mem_keys.1 hcontains
        rw [updated_eq_self (by simpa [Dict.keys] using Or.inr hkey),
          Dict.insert_eq_map (hsorted frame List.mem_cons_self) hcontains]
      · next hcontains =>
        have hkey : name ∉ Dict.keys frame.scope := fun hkey =>
          hcontains (Dict.contains_iff_mem_keys.2 hkey)
        have hothers : ∀ entry ∈ frame.scope,
            (if entry.1 = name then (name, value) else entry) = entry :=
          fun entry hentry => if_neg fun heq => hkey (List.mem_map.2 ⟨entry, hentry, heq⟩)
        have hbelow : name ∉ seen ++ Dict.keys frame.scope := by simp [hname, hkey]
        rw [List.map_congr_left hothers, List.map_id',
          ih (fun f hf => hsorted f (List.mem_cons_of_mem _ hf)) hbelow]

/-- Updates change values, not names. -/
theorem keys_update (updates : List (String × Value)) (seen : List String) (scope : Dict Value) :
    Dict.keys (scope.map fun entry => (entry.1, update updates seen entry.1 entry.2)) =
      Dict.keys scope := by
  simp [Dict.keys, Function.comp_def]

/-- An update of another name may be written first. -/
theorem updated_cons {name : String} {value : Value} (hname : name ∉ Dict.keys updates) :
    updated updates seen (updated [(name, value)] seen frames) =
      updated ((name, value) :: updates) seen frames := by
  induction frames generalizing seen with
  | nil => rfl
  | cons frame below ih =>
      have hupdate : ∀ entry : String × Value,
          update updates seen entry.1 (update [(name, value)] seen entry.1 entry.2) =
            update ((name, value) :: updates) seen entry.1 entry.2 := by
        intro entry
        by_cases hseen : entry.1 ∈ seen
        · simp [update, hseen]
        · by_cases heq : name = entry.1
          · simp [update, hseen, heq, Dict.get?, Dict.get?_eq_none (heq ▸ hname)]
          · simp [update, hseen, heq, Dict.get?]
      simp only [updated, keys_update, ih, List.map_map, Function.comp_def, hupdate]

theorem sorted_updated (hsorted : ∀ f ∈ frames, Dict.Sorted f.scope) :
    ∀ f ∈ updated updates seen frames, Dict.Sorted f.scope := by
  induction frames generalizing seen with
  | nil => exact hsorted
  | cons frame below ih =>
      intro f hf
      rcases List.mem_cons.1 hf with rfl | hbelow
      · exact List.pairwise_map.2 (hsorted frame List.mem_cons_self)
      · exact ih (fun g hg => hsorted g (List.mem_cons_of_mem _ hg)) f hbelow

/-- Writing updates of different names one by one writes them all at once. -/
theorem foldl_set (hsorted : ∀ f ∈ frames, Dict.Sorted f.scope)
    (hnodup : (Dict.keys updates).Nodup) :
    updates.foldl (fun frames update => set update.1 update.2 frames) frames =
      updated updates [] frames := by
  induction updates generalizing frames with
  | nil => exact (updated_eq_self (by simp [Dict.keys])).symm
  | cons update rest ih =>
      rcases List.nodup_cons.1 hnodup with ⟨hfresh, hrest⟩
      rw [List.foldl_cons, set_eq_updated hsorted List.not_mem_nil,
        ih (sorted_updated hsorted) hrest, updated_cons hfresh]

/-- Taking over updates one by one comes to writing all of them at once. -/
theorem commit_eq_ok {gs : List Frame} (hsorted : ∀ f ∈ frames, Dict.Sorted f.scope)
    (hnodup : (Dict.keys updates).Nodup) (h : commit frames updates = .ok gs) :
    gs = updated updates [] frames := by
  unfold commit at h
  split at h
  · cases h
    exact foldl_set hsorted hnodup
  · cases h

/-! ## Collecting variables -/

/-- Only which names were seen matters, not their order. -/
theorem collect_congr {names : List String} (h : ∀ name, name ∈ seen ↔ name ∈ names)
    (frames : List Frame) : collect seen frames = collect names frames := by
  induction frames generalizing seen names with
  | nil => rfl
  | cons frame below ih =>
      have hfound : (fun entry : String × Value => !seen.contains entry.1) =
          fun entry => !names.contains entry.1 := by
        funext entry
        rw [Bool.eq_iff_iff]
        simp [h]
      simp only [collect, hfound]
      rw [ih fun name => ?_]
      simp [h]

/-- A frame adds the variables that no frame further inside declares. -/
theorem collect_cons (seen : List String) (frame : Frame) (below : List Frame) :
    collect seen (frame :: below) =
      (frame.scope.filter fun entry => !seen.contains entry.1) ++
        collect (seen ++ Dict.keys frame.scope) below := by
  rw [collect]
  congr 1
  -- The names that are found here are those of the frame without those that were found before.
  refine collect_congr (fun name => ?_) below
  by_cases hname : name ∈ seen <;> simp [Dict.keys, hname]

/-- Every name is collected once, and only if it was not found before. -/
theorem nodup_collect (hsorted : ∀ f ∈ frames, Dict.Sorted f.scope) :
    (Dict.keys (collect seen frames)).Nodup ∧
      ∀ name ∈ Dict.keys (collect seen frames), name ∉ seen := by
  induction frames generalizing seen with
  | nil => simp [collect, Dict.keys]
  | cons frame below ih =>
      have hbelow := @ih (seen ++ Dict.keys frame.scope)
        fun f hf => hsorted f (List.mem_cons_of_mem _ hf)
      have hhere : (Dict.keys (frame.scope.filter fun entry => !seen.contains entry.1)).Nodup :=
        (Dict.nodup_keys (hsorted frame List.mem_cons_self)).sublist
          (List.filter_sublist.map Prod.fst)
      have hfound : ∀ name ∈ Dict.keys (frame.scope.filter fun entry => !seen.contains entry.1),
          name ∈ Dict.keys frame.scope ∧ name ∉ seen := by
        simp [Dict.keys]
      rw [collect_cons, Dict.keys, List.map_append]
      refine ⟨List.nodup_append.2 ⟨hhere, hbelow.1, ?_⟩, fun name hname => ?_⟩
      · rintro name hname _ hlater rfl
        exact hbelow.2 name hlater (List.mem_append_right _ (hfound name hname).1)
      · rcases List.mem_append.1 hname with hname | hname
        · exact (hfound name hname).2
        · exact fun hseen => hbelow.2 name hname (List.mem_append_left _ hseen)

/-- The documents that a script may look into are in order of their names. -/
theorem sorted_documents {story : Story} (hglobals : Dict.Sorted story.globals) :
    Dict.Sorted (documents story frames) := by
  unfold documents Story.visible
  split
  · exact List.Pairwise.nil
  · split
    · split
      · exact hglobals.filter _
      · exact List.Pairwise.nil
    · exact List.Pairwise.nil

/-- The values that a formula sees have different names. -/
theorem nodup_bindings {story : Story} (hsorted : ∀ f ∈ frames, Dict.Sorted f.scope)
    (hglobals : Dict.Sorted story.globals) : (Dict.keys (bindings story frames).all).Nodup := by
  have hdocuments : Dict.Sorted (documents story frames) := sorted_documents hglobals
  rw [Formula.Bindings.all, Dict.keys, List.map_append]
  refine List.nodup_append.2 ⟨(nodup_collect hsorted).1, Dict.nodup_keys (hdocuments.filter _), ?_⟩
  rintro name hname _ hdocument rfl
  rcases List.mem_map.1 hdocument with ⟨entry, hentry, rfl⟩
  have hfresh : ¬ entry.1 ∈ (collect [] frames).map Prod.fst := by
    simpa only [Bool.not_eq_true', List.contains_eq_mem, decide_eq_false_iff_not] using
      (List.mem_filter.1 hentry).2
  exact hfresh hname

end Frames

/-! ## What a run leaves -/

namespace Formula

/-- The datum that a run has left of the value that was bound under a name.  What the formula itself
declares lies further inside and is not meant. -/
def Ending.held? (ending : Ending) (name : String) : Option Datum :=
  (ending.scope.find? fun entry => entry.1 == name).map Prod.snd

/-- The value that was bound under the name has become this one. -/
def Ending.Leaves (ending : Ending) (name : String) (value : Value) : Prop :=
  ∃ d after, ending.held? name = some d ∧ d.toValue = .ok after ∧ (after == value) = true

/-- The first variables, which have different names, are found by their names. -/
theorem find?_of_isPrefix {names : List String} {scope : List (String × Datum)}
    (hnodup : names.Nodup) (hstart : names <+: scope.map Prod.fst) {i : Nat} {name : String}
    (hname : names[i]? = some name) :
    ∃ entry, scope[i]? = some entry ∧
      (scope.find? fun entry => entry.1 == name) = some entry := by
  induction names generalizing scope i with
  | nil => simp at hname
  | cons first rest ih =>
      rcases List.nodup_cons.1 hnodup with ⟨hfresh, hrest⟩
      cases scope with
      | nil => simp at hstart
      | cons entry scope =>
          rcases List.cons_prefix_cons.1 hstart with ⟨rfl, hothers⟩
          cases i with
          | zero =>
              have hfirst : entry.1 = name := by simpa using hname
              exact ⟨entry, rfl, by simp [hfirst]⟩
          | succ i =>
              have hlater : rest[i]? = some name := by simpa using hname
              have hne : entry.1 ≠ name := fun heq =>
                hfresh (heq ▸ List.mem_of_getElem? hlater)
              simpa [hne] using ih hrest hothers hlater

section Runs

variable {evaluator : Evaluator} {host : HostFunctions} {use : Use} {source : String} {b : Bindings}
  {generator : UInt32} {ending : Ending}

/-- What has run to its end has been run by the evaluator on the bound values. -/
theorem run_of_runText (h : runText evaluator host use source b generator = .ok ending) :
    evaluator.run host use (use.text source) b.data generator = .ok ending := by
  unfold runText at h
  split at h
  · cases h
  · next hrun =>
    cases h
    exact hrun

/-- What a run leaves of a bound value stands where the value was bound. -/
theorem held?_of_runText (hkeeps : evaluator.KeepsNames)
    (h : runText evaluator host use source b generator = .ok ending)
    (hnodup : (Dict.keys b.all).Nodup) {i : Nat} {entry : String × Value}
    (hentry : b.all[i]? = some entry) :
    ∃ left, ending.data[i]? = some left ∧ ending.held? entry.1 = some left := by
  have hname : (b.data.map Prod.fst)[i]? = some entry.1 := by simp [Bindings.data, hentry]
  have hnames : (b.data.map Prod.fst).Nodup := by
    simpa [Bindings.data, Dict.keys, Function.comp_def] using hnodup
  have hstart := hkeeps _ _ _ _ _ _ (run_of_runText h)
  rcases find?_of_isPrefix hnames hstart hname with ⟨found, hfound, hfind⟩
  exact ⟨found.2, by simp [Ending.data, hfound], by simp [Ending.held?, hfind]⟩

/-- Only bound variables are reported as changed, in order. -/
theorem keys_changes {entries updates : List (String × Value)} {data : List Datum}
    (h : changes entries data = .ok updates) : (Dict.keys updates).Sublist (Dict.keys entries) := by
  induction entries generalizing data updates with
  | nil =>
      cases h
      exact List.Sublist.slnil
  | cons entry rest ih =>
      rcases entry with ⟨name, before⟩
      cases data with
      | nil =>
          cases h
          exact List.nil_sublist _
      | cons left data =>
          rcases changes_cons_eq_ok h with ⟨_, others, -, hothers, rfl⟩
          split
          · exact (ih hothers).cons _
          · exact (ih hothers).cons_cons _

/-- A variable that is not among the changes is left with the value that it had, and one that is gets
the value that it is left with. -/
theorem after_of_changes {entries updates : List (String × Value)} {data : List Datum}
    (h : changes entries data = .ok updates) (hnodup : (Dict.keys entries).Nodup) {i : Nat}
    {entry : String × Value} {left : Datum} (hentry : entries[i]? = some entry)
    (hleft : data[i]? = some left) :
    ∃ after, left.toValue = .ok after ∧
      (after == (Dict.get? updates entry.1).getD entry.2) = true := by
  induction entries generalizing data updates i with
  | nil => simp at hentry
  | cons first rest ih =>
      rcases first with ⟨name, before⟩
      rcases List.nodup_cons.1 hnodup with ⟨hfresh, hrest⟩
      cases data with
      | nil => simp at hleft
      | cons d data =>
          rcases changes_cons_eq_ok h with ⟨after, others, hafter, hothers, rfl⟩
          cases i with
          | zero =>
              cases hentry
              cases hleft
              refine ⟨after, hafter, ?_⟩
              -- The names are different, so the others cannot update this one.
              split
              · next hsame =>
                have hnone : name ∉ Dict.keys others := fun hname =>
                  hfresh ((keys_changes hothers).subset hname)
                rwa [Dict.get?_eq_none hnone]
              · simpa [Dict.get?] using (Datum.finite_of_toValue _ _ hafter).beq_self
          | succ i =>
              have hlater : rest[i]? = some entry := by simpa using hentry
              have hne : name ≠ entry.1 := by
                rintro rfl
                exact hfresh (List.mem_map.2 ⟨entry, List.mem_of_getElem? hlater, rfl⟩)
              have hget : Dict.get? (if after == before then others else (name, after) :: others)
                  entry.1 = Dict.get? others entry.1 := by
                split
                · rfl
                · simp [Dict.get?, hne]
              rw [hget]
              exact ih hothers hrest hlater (by simpa using hleft)

/-- A document that was let through has a value equal to the one it had. -/
theorem after_of_untouched {entries : List (String × Value)} {data : List Datum}
    (h : untouched entries data = .ok ()) {i : Nat} {entry : String × Value} {left : Datum}
    (hentry : entries[i]? = some entry) (hleft : data[i]? = some left) :
    ∃ after, left.toValue = .ok after ∧ (after == entry.2) = true := by
  induction entries generalizing data i with
  | nil => simp at hentry
  | cons first rest ih =>
      rcases first with ⟨name, before⟩
      cases data with
      | nil => simp at hleft
      | cons d data =>
          rw [untouched] at h
          split at h
          · next hunchanged =>
            cases i with
            | zero =>
                cases hentry
                cases hleft
                unfold unchanged at hunchanged
                split at hunchanged
                · next after hafter => exact ⟨after, hafter, hunchanged⟩
                · cases hunchanged
            | succ i => exact ih h (by simpa using hentry) (by simpa using hleft)
          · cases h

/-- What a formula that succeeds has been checked for. -/
theorem leaves_of_runChecked {outcome : Outcome Datum} (hkeeps : evaluator.KeepsNames)
    (hnodup : (Dict.keys b.all).Nodup)
    (h : runChecked evaluator host use source b generator = .ok outcome) :
    (Dict.keys outcome.updates).Nodup ∧
    ∃ ending, runText evaluator host use source b generator = .ok ending ∧
      ending.generator = outcome.generator ∧
      (∀ entry ∈ b.scope,
        ending.Leaves entry.1 ((Dict.get? outcome.updates entry.1).getD entry.2)) ∧
      ∀ entry ∈ b.documents, ending.Leaves entry.1 entry.2 := by
  rcases ok_of_bind h with ⟨ending, hrun, hrest⟩
  rcases ok_of_bind hrest with ⟨updates, hchanges, hrest⟩
  rcases ok_of_bind hrest with ⟨⟨⟩, huntouched, hreturn⟩
  cases hreturn
  have hscope : (Dict.keys b.scope).Nodup := by
    rw [Bindings.all, Dict.keys, List.map_append] at hnodup
    exact hnodup.of_append_left
  refine ⟨hscope.sublist (keys_changes hchanges), ending, hrun, rfl, fun entry hentry => ?_,
    fun entry hentry => ?_⟩
  · rcases List.getElem?_of_mem hentry with ⟨i, hi⟩
    have hlt := (List.getElem?_eq_some_iff.1 hi).1
    have hall : b.all[i]? = some entry := by rw [Bindings.all, List.getElem?_append_left hlt, hi]
    rcases held?_of_runText hkeeps hrun hnodup hall with ⟨left, hleft, hheld⟩
    rcases after_of_changes hchanges hscope hi hleft with ⟨after, hafter, hsame⟩
    exact ⟨left, after, hheld, hafter, hsame⟩
  · rcases List.getElem?_of_mem hentry with ⟨i, hi⟩
    -- Documents are bound after the variables.
    have hall : b.all[b.scope.length + i]? = some entry := by
      rw [Bindings.all, List.getElem?_append_right (Nat.le_add_right _ _), Nat.add_sub_cancel_left,
        hi]
    rcases held?_of_runText hkeeps hrun hnodup hall with ⟨left, hleft, hheld⟩
    rcases after_of_untouched huntouched hi (by rwa [List.getElem?_drop]) with
      ⟨after, hafter, hsame⟩
    exact ⟨left, after, hheld, hafter, hsame⟩

end Runs

end Formula

/-! ## The effect of a formula -/

/-- The frame `g` is what a run with this ending has made of the frame `f`; the names in `seen` are
declared further inside. -/
structure Frame.Committed (ending : Formula.Ending) (seen : List String) (f g : Frame) : Prop where
  same : g = { f with scope := g.scope }
  names : Dict.keys g.scope = Dict.keys f.scope
  shadowed : ∀ name ∈ seen, Dict.get? g.scope name = Dict.get? f.scope name
  taken : ∀ name ∈ Dict.keys f.scope, name ∉ seen →
    ∃ value, Dict.get? g.scope name = some value ∧ ending.Leaves name value
  typed : g.Typed

/-- The same of all frames, innermost first. -/
inductive Frames.Committed (ending : Formula.Ending) :
    List String → List Frame → List Frame → Prop
  | nil {seen : List String} : Committed ending seen [] []
  | cons {seen : List String} {f g : Frame} {below under : List Frame} :
      f.Committed ending seen g → Committed ending (seen ++ Dict.keys f.scope) below under →
      Committed ending seen (f :: below) (g :: under)

/-- If the run has left each visible variable with its update, then the updated frames are what the
run has made of them. -/
theorem Frames.committed_updated {ending : Formula.Ending} {updates : List (String × Value)}
    {seen : List String} {frames : List Frame}
    (hleaves : ∀ entry ∈ collect seen frames,
      ending.Leaves entry.1 ((Dict.get? updates entry.1).getD entry.2))
    (htyped : ∀ f ∈ updated updates seen frames, f.Typed) :
    Committed ending seen frames (updated updates seen frames) := by
  induction frames generalizing seen with
  | nil => exact .nil
  | cons frame below ih =>
      rw [collect_cons] at hleaves
      -- The names of this frame count as seen in the frames below it.
      refine .cons ?_ (ih (fun entry hentry => hleaves entry (List.mem_append_right _ hentry))
        fun f hf => htyped f (List.mem_cons_of_mem _ hf))
      have hget := Dict.get?_map (update updates seen) frame.scope
      exact {
        same := rfl
        names := keys_update updates seen frame.scope
        shadowed := by
          intro name hname
          refine (hget name).trans ?_
          cases Dict.get? frame.scope name <;> simp [update, hname]
        taken := by
          intro name hkey hname
          rcases Dict.contains_iff_exists.1 (Dict.contains_iff_mem_keys.2 hkey) with
            ⟨before, hbefore⟩
          have hfound : (name, before) ∈
              frame.scope.filter fun entry => !seen.contains entry.1 :=
            List.mem_filter.2 ⟨Dict.mem_of_get? hbefore, by simp [hname]⟩
          refine ⟨(Dict.get? updates name).getD before, (hget name).trans ?_,
            hleaves _ (List.mem_append_left _ hfound)⟩
          simp [hbefore, update, hname]
        typed := htyped _ List.mem_cons_self }

namespace Act

variable {story : Story} {use : Formula.Use} {source : String} {p q : Player}

/-- Runs a formula in either use; only an expression has a value. -/
def formula (story : Story) : Formula.Use → String → Act (Option Value)
  | .expression, source => do return some (← evaluate story source)
  | .code, source => do
    execute story source
    return none

section Running

variable {α : Type} {run : Player → Except Fault (Formula.Outcome α)}

/-- A run whose outcome is accepted: its updates are committed, and nothing else is done. -/
theorem committed_of_run {x : α} (h : (do accept (← liftM (run (← get))) : Act α) p = .ok (x, q)) :
    ∃ outcome frames, run p = .ok outcome ∧ Frames.commit p.frames outcome.updates = .ok frames ∧
      q = { p with frames, generator := outcome.generator } := by
  rcases bind_eq_ok.1 h with ⟨_, _, hget, hrest⟩
  rcases get_eq_ok.1 hget with ⟨rfl, rfl⟩
  rcases bind_eq_ok.1 hrest with ⟨outcome, _, hrun, haccept⟩
  rcases liftM_eq_ok.1 hrun with ⟨houtcome, rfl⟩
  rcases bind_eq_ok.1 haccept with ⟨_, _, hget, hcommits⟩
  rcases get_eq_ok.1 hget with ⟨rfl, rfl⟩
  rcases bind_eq_ok.1 hcommits with ⟨frames, _, hlift, hsets⟩
  rcases liftM_eq_ok.1 hlift with ⟨hcommit, rfl⟩
  rcases bind_eq_ok.1 hsets with ⟨_, _, hset, hreturn⟩
  rcases set_eq_ok.1 hset with rfl
  rcases pure_eq_ok.1 hreturn with ⟨-, rfl⟩
  exact ⟨outcome, frames, houtcome, hcommit, rfl⟩

/-- A run that fails, or whose outcome is not accepted, leaves the state as it was. -/
theorem reached_of_run {failure : Failure}
    (h : (do accept (← liftM (run (← get))) : Act α) p = .error failure) : failure.reached = p := by
  rcases bind_eq_error.1 h with hget | ⟨_, _, hget, hrest⟩
  · cases hget
  · rcases get_eq_ok.1 hget with ⟨rfl, rfl⟩
    rcases bind_eq_error.1 hrest with hlift | ⟨_, _, hlift, haccept⟩
    · rcases liftM_eq_error.1 hlift with ⟨_, -, rfl⟩
      rfl
    · rcases liftM_eq_ok.1 hlift with ⟨-, rfl⟩
      rcases bind_eq_error.1 haccept with hget | ⟨_, _, hget, hcommits⟩
      · cases hget
      · rcases get_eq_ok.1 hget with ⟨rfl, rfl⟩
        rcases bind_eq_error.1 hcommits with hlift | ⟨_, _, -, hsets⟩
        · rcases liftM_eq_error.1 hlift with ⟨_, -, rfl⟩
          rfl
        · cases hsets

end Running

/-- A formula that succeeds has been checked, and its changes are committed. -/
theorem checked_of_formula {out : Option Value} (h : formula story use source p = .ok (out, q)) :
    ∃ outcome frames,
      Formula.runChecked story.evaluator story.host use source (Frames.bindings story p.frames)
          p.generator = .ok outcome ∧
      Frames.commit p.frames outcome.updates = .ok frames ∧
      q = { p with frames, generator := outcome.generator } := by
  cases use with
  | expression =>
      rcases bind_eq_ok.1 h with ⟨_, _, hevaluate, hreturn⟩
      rcases pure_eq_ok.1 hreturn with ⟨-, rfl⟩
      rcases committed_of_run hevaluate with ⟨outcome, frames, hrun, hcommit, hq⟩
      rcases ok_of_bind hrun with ⟨checked, hchecked, hrest⟩
      rcases ok_of_bind hrest with ⟨_, -, hreturn⟩
      cases hreturn
      exact ⟨checked, frames, hchecked, hcommit, hq⟩
  | code =>
      rcases bind_eq_ok.1 h with ⟨_, _, hexecute, hreturn⟩
      rcases pure_eq_ok.1 hreturn with ⟨-, rfl⟩
      rcases committed_of_run hexecute with ⟨outcome, frames, hrun, hcommit, hq⟩
      rcases ok_of_bind hrun with ⟨checked, hchecked, hreturn⟩
      cases hreturn
      exact ⟨checked, frames, hchecked, hcommit, hq⟩

/-- A formula that fails has not changed the state. -/
theorem reached_of_formula {failure : Failure}
    (h : formula story use source p = .error failure) : failure.reached = p := by
  cases use with
  | expression =>
      rcases bind_eq_error.1 h with hevaluate | ⟨_, _, -, hreturn⟩
      · exact reached_of_run hevaluate
      · cases hreturn
  | code =>
      rcases bind_eq_error.1 h with hexecute | ⟨_, _, -, hreturn⟩
      · exact reached_of_run hexecute
      · cases hreturn

end Act

variable {story : Story} {use : Formula.Use} {source : String} {p : Player}

/-- A formula that fails changes nothing.  One that succeeds changes the generator and values of
variables: every name stays in its frame, the innermost variable of a name has the value that the run
has left of it, and this is of its type, all other variables keep their values, and documents are
left as they were.  Of the evaluator it is asked that what is bound for a run stays in its place. -/
theorem formula_commits (hkeeps : story.evaluator.KeepsNames) (htyped : p.Typed)
    (hsorted : ∀ f ∈ p.frames, Dict.Sorted f.scope) (hglobals : Dict.Sorted story.globals) :
    (∀ failure, Act.formula story use source p = .error failure → failure.reached = p) ∧
    ∀ out q, Act.formula story use source p = .ok (out, q) →
      ∃ ending,
        Formula.runText story.evaluator story.host use source (Frames.bindings story p.frames)
          p.generator = .ok ending ∧
        q = { p with frames := q.frames, generator := ending.generator } ∧
        Frames.Committed ending [] p.frames q.frames ∧
        ∀ entry ∈ (Frames.bindings story p.frames).documents, ending.Leaves entry.1 entry.2 := by
  refine ⟨fun failure h => Act.reached_of_formula h, fun out q h => ?_⟩
  rcases Act.checked_of_formula h with ⟨outcome, frames, hchecked, hcommit, rfl⟩
  rcases Formula.leaves_of_runChecked hkeeps (Frames.nodup_bindings hsorted hglobals) hchecked with
    ⟨hnodup, ending, hrun, hgenerator, hscope, hdocuments⟩
  have hframes := Frames.commit_eq_ok hsorted hnodup hcommit
  have hq : ({ p with frames } : Player).Typed :=
    typed_of_inherited htyped (Frames.Inherited.of_revalued (Frames.revalued_of_commit hcommit))
  refine ⟨ending, hrun, by rw [hgenerator], ?_, hdocuments⟩
  subst hframes
  exact Frames.committed_updated hscope hq

/-- A script that may look into a document is called by another one. -/
def shadowTale : Story where
  scripts := [
    ("helper", { Script.ofGroups "helper" [] [("helper", [])] with visibleGlobals := ["sign"] }),
    ("main", .ofGroups "main" [] [("main", [.call "k" "helper" []])])]
  globals := [("sign", .text "welcome")]
  version := Story.defaultVersion
  seed := Story.defaultSeed
  host := .none
  evaluator := Formula.interpreter

def shadowTale.called : Player where
  frames := [
    { Player.rootFrame "helper" ⟨[("x", .text "a")], [("x", .primitive .string)]⟩
        (some ⟨1, 1, []⟩) with id := 2 },
    { Player.rootFrame "main" ⟨[("x", .text "b"), ("y", .text "")],
        [("x", .primitive .string), ("y", .primitive .string)]⟩ none with id := 1 }]
  pending := none
  ended := false
  counter := 3
  once := []
  generator := 7

def Player.texts (p : Player) : List (List (String × Option String)) :=
  p.frames.map fun f => f.scope.map fun entry => (entry.1, entry.2.asText?)

/-- Code in the inner script changes its own variable and one of the caller; the variable that it
declares itself is lost, and the caller's variable of the same name stays.  If one value is refused,
the other is not written either. -/
theorem formula_commits_shadowTale :
    let source := "y = x + \"!\"; x = sign; let x = \"z\";"
    let refused := "y = \"c\"; x = 1;"
    (∃ failure, Act.formula shadowTale .code refused shadowTale.called = .error failure ∧
        failure.fault = .variableType "x" "string" "number" ∧ failure.reached = shadowTale.called) ∧
      ∃ out q ending, Act.formula shadowTale .code source shadowTale.called = .ok (out, q) ∧
        q.texts = [[("x", some "welcome")], [("x", some "b"), ("y", some "a!")]] ∧
        Formula.runText Formula.interpreter shadowTale.host .code source
          (Frames.bindings shadowTale shadowTale.called.frames) shadowTale.called.generator =
            .ok ending ∧
        Frames.Committed ending [] shadowTale.called.frames q.frames ∧
        ending.Leaves "sign" (.text "welcome") := by
  intro source refused
  have hkeeps : shadowTale.evaluator.KeepsNames := Formula.keepsNames_interpreter
  have htyped : shadowTale.called.Typed := by
    simp only [Player.Typed, Frame.Typed, shadowTale.called, Player.rootFrame, List.forall_mem_cons,
      List.not_mem_nil, false_implies, implies_true, and_true]
    have hfits : ∀ s, Value.fits (.primitive .string) (.text s) = true := fun s => by
      simp [Value.fits]
    exact ⟨⟨_, rfl, hfits _⟩, ⟨_, rfl, hfits _⟩, ⟨_, rfl, hfits _⟩⟩
  have hsorted : ∀ f ∈ shadowTale.called.frames, Dict.Sorted f.scope := by
    unfold Dict.Sorted
    decide +kernel
  have hglobals : Dict.Sorted shadowTale.globals := List.pairwise_singleton _ _
  have hdocument : ("sign", .text "welcome") ∈
      (Frames.bindings shadowTale shadowTale.called.frames).documents := List.mem_singleton_self _
  have hfault : ((Act.formula shadowTale .code refused shadowTale.called).mapError
      Failure.fault).map (fun _ => ()) = .error (.variableType "x" "string" "number") := by
    decide +kernel
  have htexts : (Act.formula shadowTale .code source shadowTale.called).toOption.map
      (fun result => result.2.texts) =
        some [[("x", some "welcome")], [("x", some "b"), ("y", some "a!")]] := by
    decide +kernel
  constructor
  · cases hrun : Act.formula shadowTale .code refused shadowTale.called with
    | ok _ =>
        rw [hrun] at hfault
        cases hfault
    | error failure =>
        rw [hrun] at hfault
        exact ⟨failure, rfl, Except.error.inj hfault,
          (formula_commits hkeeps htyped hsorted hglobals).1 failure hrun⟩
  · cases hrun : Act.formula shadowTale .code source shadowTale.called with
    | error failure =>
        rw [hrun] at htexts
        cases htexts
    | ok result =>
        rcases result with ⟨out, q⟩
        rw [hrun] at htexts
        rcases (formula_commits hkeeps htyped hsorted hglobals).2 out q hrun with
          ⟨ending, hending, -, hframes, hdocuments⟩
        exact ⟨out, q, ending, rfl, Option.some.inj htexts, hending, hframes,
          hdocuments _ hdocument⟩

end StoryPlayer
