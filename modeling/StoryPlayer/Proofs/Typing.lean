import StoryPlayer.Proofs.Origin

/-!
# Types of variables and names that have been used

- `ScriptType.Proper` says that the fields of object types have different names; the default of such
  a type has this type,
- `Player.Typed` says that all variables have values of their types,
- `Once.Proper` says that what has been used is recorded in order, under scripts of the story,
- steps and answers keep both.
-/

namespace StoryPlayer

/-! ## Types -/

/-- The fields of object types have different names. -/
inductive ScriptType.Proper : ScriptType → Prop
  | primitive (name : Primitive) : Proper (.primitive name)
  | array {element : ScriptType} : Proper element → Proper (.array element)
  | map {value : ScriptType} : Proper value → Proper (.map value)
  | object {typeName : String} {fields : List (String × ScriptType)} :
      (Dict.keys fields).Nodup → (∀ field ∈ fields, Proper field.2) →
      Proper (.object typeName fields)

def Story.Proper (story : Story) : Prop :=
  ∀ entry ∈ story.scripts, ∀ param ∈ entry.2.params, param.type.Proper

namespace Value

theorem length_defaultFields (fields : List (String × ScriptType)) :
    (defaultFields fields).length = fields.length := by
  induction fields with
  | nil => simp [defaultFields]
  | cons field rest ih => simp [defaultFields, ih]

/-- Every field starts with the default of its type. -/
theorem get?_defaultFields {fields : List (String × ScriptType)} {field : String × ScriptType}
    (hnodup : (Dict.keys fields).Nodup) (h : field ∈ fields) :
    Dict.get? (defaultFields fields) field.1 = some (default field.2) := by
  induction fields with
  | nil => cases h
  | cons first rest ih =>
      rcases first with ⟨name, type⟩
      rcases List.nodup_cons.1 hnodup with ⟨hfresh, hrest⟩
      rcases List.mem_cons.1 h with rfl | hlater
      · simp [defaultFields, Dict.get?]
      · have hne : name ≠ field.1 := by
          rintro rfl
          exact hfresh (List.mem_map.2 ⟨field, hlater, rfl⟩)
        simpa [defaultFields, Dict.get?, hne] using ih hrest hlater

/-- An object is of the type if each field has a value of its type. -/
theorem fitsFields_of_forall {fields : List (String × ScriptType)} {entries : List (String × Value)}
    (h : ∀ field ∈ fields, ∃ value, Dict.get? entries field.1 = some value ∧
      fits field.2 value = true) : fitsFields fields entries = true := by
  induction fields with
  | nil => simp [fitsFields]
  | cons field rest ih =>
      rcases h field List.mem_cons_self with ⟨value, hget, hfits⟩
      have hrest := ih fun other hother => h other (List.mem_cons_of_mem _ hother)
      simp [fitsFields, hget, hfits, hrest]

/-- The default of a type has this type. -/
theorem fits_default {type : ScriptType} (h : type.Proper) : fits type (default type) = true := by
  induction h with
  | primitive name => cases name <;> simp [default, fits]
  | array _ _ => simp [default, fits]
  | map _ _ => simp [default, fits]
  | @object typeName fields hnodup _ ih =>
      simp only [default, fits, length_defaultFields, BEq.rfl, Bool.true_and]
      exact fitsFields_of_forall fun field hfield =>
        ⟨_, get?_defaultFields hnodup hfield, ih field hfield⟩

end Value

/-! ## Variables -/

def Locals.Typed (locals : Locals) : Prop :=
  ∀ entry ∈ locals.scope,
    ∃ type, Dict.get? locals.types entry.1 = some type ∧ Value.fits type entry.2 = true

/-- Parameters start with values of their types. -/
theorem typed_ofParams {params : List Param} (hproper : ∀ param ∈ params, param.type.Proper) :
    (Locals.ofParams params).Typed := by
  -- Of two parameters of one name the later counts; the entries stay in order on the way.
  suffices h : ∀ locals : Locals, Dict.Sorted locals.scope → locals.Typed →
      (params.foldl (fun locals param =>
        { scope := Dict.insert locals.scope param.name (Value.default param.type)
          types := Dict.insert locals.types param.name param.type }) locals : Locals).Typed from
    h ⟨[], []⟩ List.Pairwise.nil fun entry hentry => by cases hentry
  induction params with
  | nil => exact fun locals _ h => h
  | cons param rest ih =>
      intro locals hsorted h
      refine ih (fun other hother => hproper other (List.mem_cons_of_mem _ hother)) _
        (Dict.sorted_insert hsorted _ _) ?_
      intro entry hentry
      rcases Dict.ne_of_mem_insert hsorted hentry with rfl | ⟨hold, hother⟩
      · refine ⟨param.type, by simp [Dict.get?_insert], ?_⟩
        exact Value.fits_default (hproper param List.mem_cons_self)
      · rcases h entry hold with ⟨type, hget, hfits⟩
        exact ⟨type, by simp [Dict.get?_insert, hother.symm, hget], hfits⟩

/-- Arguments are checked against the types of their parameters. -/
theorem typed_of_assign {script : String} {values : Dict Value} {locals locals' : Locals}
    (h : Locals.assign script values locals = .ok locals') (hlocals : locals.Typed) :
    locals'.Typed := by
  induction values generalizing locals with
  | nil =>
      cases h
      exact hlocals
  | cons entry rest ih =>
      rcases entry with ⟨name, value⟩
      simp only [Locals.assign] at h
      split at h
      · cases h
      · next type hget =>
        split at h
        · next hfits =>
          refine ih h fun entry hentry => ?_
          rcases Dict.mem_of_mem_insert hentry with rfl | hold
          · exact ⟨type, hget, hfits⟩
          · exact hlocals entry hold
        · cases h

variable {story : Story} {script : String} {p q : Player}

/-- A script starts with values of the right types. -/
theorem typed_of_locals {values : Dict Value} {locals : Locals} (hproper : story.Proper)
    (h : story.locals script values = .ok locals) : locals.Typed := by
  unfold Story.locals at h
  split at h
  · cases h
  · next callee hcallee =>
    refine typed_of_assign h (typed_ofParams fun param hparam => ?_)
    exact hproper _ (Dict.mem_of_get? hcallee) param hparam

/-- All variables have values of their types. -/
def Player.Typed (p : Player) : Prop :=
  ∀ f ∈ p.frames, f.Typed

/-- Typing is inherited with the frames. -/
theorem typed_of_inherited (hp : p.Typed) (h : Frames.Inherited p.frames q.frames) : q.Typed := by
  intro g hg
  rcases h g hg with ⟨f, hf, hinherits⟩
  exact hinherits.typed (hp f hf)

/-- A frame without variables is typed. -/
theorem typed_of_no_variables {f : Frame} (h : f.scope = []) : f.Typed := by
  intro entry hentry
  rw [h] at hentry
  cases hentry

/-- A step keeps all types. -/
theorem Step.typed {progress : Progress} (h : Step story p progress q) (hproper : story.Proper)
    (hp : p.Typed) : q.Typed := by
  rcases h.origin with hinherited | ⟨node, -, -, horigin⟩
  · exact typed_of_inherited hp hinherited
  · intro g hg
    cases horigin g hg with
    | kept hf hinherits => exact hinherits.typed (hp _ hf)
    | entered _ _ hscope => exact typed_of_no_variables hscope
    | started _ _ hlocals _ hg' =>
        rw [hg']
        exact typed_of_locals hproper hlocals

/-- An answer keeps all types. -/
theorem Answer.typed {index : Nat} (h : Answer story p index q) (hp : p.Typed) : q.Typed := by
  intro g hg
  rcases h.origin g hg with ⟨f, hf, hinherits⟩ | ⟨-, -, hscope⟩
  · exact hinherits.typed (hp f hf)
  · exact typed_of_no_variables hscope

/-- A story starts typed, since arguments are checked and defaults fit. -/
theorem begin_typed {arguments : Dict Value} (hproper : story.Proper)
    (h : Player.begin story script arguments = .ok p) : p.Typed := by
  rcases begin_eq_ok h with ⟨callee, root, locals, -, -, hlocals, rfl⟩
  intro f hf
  rcases List.mem_singleton.1 hf with rfl
  exact typed_of_locals hproper hlocals

/-! ## Names that have been used -/

/-- Under scripts of the story there are names in order, and not only empty lists of them. -/
structure Once.Proper (story : Story) (once : Once) : Prop where
  names : ∀ entry ∈ once, entry.2 ≠ []
  ordered : ∀ entry ∈ once, entry.2.Pairwise (· < ·)
  scripts : ∀ entry ∈ once, Dict.contains story.scripts entry.1 = true

namespace Once

theorem mem_of_mem_insertKey {key name : String} {names : List String}
    (h : name ∈ insertKey key names) : name = key ∨ name ∈ names := by
  induction names with
  | nil => simpa [insertKey] using h
  | cons first rest ih =>
      simp only [insertKey] at h
      split at h
      · simpa using h
      · split at h
        · exact Or.inr h
        · rcases List.mem_cons.1 h with rfl | hrest
          · exact Or.inr List.mem_cons_self
          · rcases ih hrest with hnew | hold
            · exact Or.inl hnew
            · exact Or.inr (List.mem_cons_of_mem _ hold)

theorem insertKey_ne_nil (key : String) (names : List String) : insertKey key names ≠ [] := by
  cases names with
  | nil => simp [insertKey]
  | cons first rest =>
      simp only [insertKey]
      split
      · simp
      · split <;> simp

/-- Inserting a name keeps names in strict order. -/
theorem pairwise_insertKey {names : List String} (h : names.Pairwise (· < ·)) (key : String) :
    (insertKey key names).Pairwise (· < ·) := by
  induction names with
  | nil => exact List.pairwise_singleton _ _
  | cons first rest ih =>
      rcases List.pairwise_cons.1 h with ⟨hfirst, hrest⟩
      simp only [insertKey]
      split
      · next hlt =>
        refine List.pairwise_cons.2 ⟨fun name hname => ?_, h⟩
        rcases List.mem_cons.1 hname with rfl | hname
        · exact hlt
        · exact lt_trans hlt (hfirst name hname)
      · next hge =>
        split
        · exact h
        · next hne =>
          refine List.pairwise_cons.2 ⟨fun name hname => ?_, ih hrest⟩
          rcases mem_of_mem_insertKey hname with rfl | hname
          · exact lt_of_le_of_ne (not_lt.1 hge) hne
          · exact hfirst name hname

/-- A name after all others is put at the end. -/
theorem insertKey_last {key : String} {names : List String} (h : ∀ name ∈ names, name < key) :
    insertKey key names = names ++ [key] := by
  induction names with
  | nil => rfl
  | cons first rest ih =>
      have hfirst := h first List.mem_cons_self
      have hrest := ih fun name hname => h name (List.mem_cons_of_mem _ hname)
      simp [insertKey, not_lt_of_gt hfirst, ne_of_lt hfirst, hrest]

/-- Names in order are left as they are. -/
theorem orderKeys_eq {names : List String} (h : names.Pairwise (· < ·)) :
    orderKeys names = names := by
  -- The names so far stay in front; the next one comes after all of them.
  suffices hfold : ∀ before, (before ++ names).Pairwise (· < ·) →
      names.foldl (fun ordered key => insertKey key ordered) before = before ++ names from
    hfold [] h
  clear h
  induction names with
  | nil => simp
  | cons name rest ih =>
      intro before hbefore
      have hlast : insertKey name before = before ++ [name] := by
        refine insertKey_last fun other hother => ?_
        exact (List.pairwise_append.1 hbefore).2.2 other hother name List.mem_cons_self
      rw [List.foldl_cons, hlast, ih _ (by simpa using hbefore)]
      simp

theorem Proper.nil : Proper story [] :=
  ⟨by simp, by simp, by simp⟩

/-- A name of a script of the story may be marked. -/
theorem Proper.mark {once : Once} (h : once.Proper story)
    (hscript : Dict.contains story.scripts script = true) (key : String) :
    (once.mark script key).Proper story := by
  -- The names of a script that is not there yet start from none.
  have hkeys : (once.keys script).Pairwise (· < ·) := by
    unfold keys
    cases hget : Dict.get? once script with
    | none => exact List.Pairwise.nil
    | some names => exact h.ordered _ (Dict.mem_of_get? hget)
  refine ⟨fun entry hentry => ?_, fun entry hentry => ?_, fun entry hentry => ?_⟩
  · rcases Dict.mem_of_mem_insert hentry with rfl | hold
    · exact insertKey_ne_nil _ _
    · exact h.names entry hold
  · rcases Dict.mem_of_mem_insert hentry with rfl | hold
    · exact pairwise_insertKey hkeys key
    · exact h.ordered entry hold
  · rcases Dict.mem_of_mem_insert hentry with rfl | hold
    · exact hscript
    · exact h.scripts entry hold

/-- At most one name of a script of the story is used up. -/
def Marked (story : Story) (once once' : Once) : Prop :=
  once' = once ∨
    ∃ script key, Dict.contains story.scripts script = true ∧ once' = once.mark script key

theorem Proper.marked {once once' : Once} (h : once.Proper story)
    (hmarked : once.Marked story once') : once'.Proper story := by
  rcases hmarked with rfl | ⟨script, key, hscript, rfl⟩
  · exact h
  · exact h.mark hscript key

end Once

/-- A group belongs to a script of the story. -/
theorem contains_of_group {group : String} {found : String × Group}
    (h : story.group group = .ok found) : Dict.contains story.scripts found.1 = true := by
  rw [Dict.contains_iff_mem_keys]
  unfold Story.group at h
  -- By induction on the scripts, in the order in which they are searched.
  generalize story.scripts = scripts at h ⊢
  induction scripts with
  | nil => cases h
  | cons entry rest ih =>
      rcases entry with ⟨name, script⟩
      simp only [Story.findGroup?] at h
      cases hhere : Dict.get? script.groups group with
      | some here =>
          simp only [hhere] at h
          cases h
          exact List.mem_cons_self
      | none =>
          simp only [hhere] at h
          exact List.mem_cons_of_mem _ (ih h)

/-- A node uses up at most one name of its script. -/
theorem Move.once {node : Node} {out : Option Output} (h : Move story script p node out q) :
    q.once = p.once ∨ ∃ key, q.once = p.once.mark script key := by
  cases h with
  | textUsed _ _ => exact Or.inl rfl
  | @text id _ _ once _ _ _ _ hrender _ =>
      have heval := (Act.evaluates_render story _).ok hrender
      -- A text that is shown once leaves its mark.
      cases once with
      | true => exact Or.inr ⟨Once.textKey id, by simp [heval.once]⟩
      | false => exact Or.inl heval.once
  | code hexecute _ => exact Or.inl ((Act.evaluates_execute story _).ok hexecute).once
  | declare hvalue _ _ _ => exact Or.inl hvalue.evaluated.once
  | branchOver hcondition _ => exact Or.inl ((Act.evaluates_condition story _).ok hcondition).once
  | branchInto hcondition _ _ _ =>
      exact Or.inl ((Act.evaluates_condition story _).ok hcondition).once
  | loopOver hcondition _ => exact Or.inl ((Act.evaluates_condition story _).ok hcondition).once
  | loopInto hcondition _ => exact Or.inl ((Act.evaluates_condition story _).ok hcondition).once
  | choiceOver hoffered _ => exact Or.inl ((Act.evaluates_offered story _ _).ok hoffered).once
  | choice hoffered _ hitems hprompt _ =>
      have heval := evaluated_of_choice hoffered hitems hprompt
      exact Or.inl heval.once
  | call _ _ _ _ hpassed _ _ =>
      exact Or.inl ((Act.evaluates_passArguments story _ _ _ _ _).ok hpassed).once
  | tailCall _ _ _ _ hpassed _ _ _ _ =>
      exact Or.inl ((Act.evaluates_passArguments story _ _ _ _ _).ok hpassed).once
  | @leaveScript _ _ root below _ _ hsettle =>
      have hstate := settle_state story root.scope root.continuation { p with frames := below }
      rw [hsettle] at hstate
      rcases hstate with rfl | ⟨frames, rfl⟩
      · exact Or.inl rfl
      · exact Or.inl rfl
  | transferAtBottom _ _ hvalues _ _ _ =>
      exact Or.inl ((Act.evaluates_transferArguments story _ _ _ _ _).ok hvalues).once
  | transfer _ _ hvalues _ _ _ _ =>
      exact Or.inl ((Act.evaluates_transferArguments story _ _ _ _ _).ok hvalues).once
  | leave _ _ _ => exact Or.inl rfl
  | again _ _ _ => exact Or.inl rfl

/-- A step marks at most one name. -/
theorem Step.marked {progress : Progress} (h : Step story p progress q) :
    p.once.Marked story q.once := by
  have hsettled : (q = p.finished ∨ ∃ frames, q = { p with frames }) →
      p.once.Marked story q.once := by
    rintro (rfl | ⟨frames, rfl⟩)
    · exact Or.inl rfl
    · exact Or.inl rfl
  cases h with
  | concluded _ => exact Or.inl rfl
  | groupMissing _ _ => exact Or.inl rfl
  | @finished f _ _ _ _ _ _ hfinish =>
      have hstate := finishFrame_state story f.id p
      rw [hfinish] at hstate
      exact hsettled hstate
  | @finishFailed f _ _ _ _ _ _ _ hfinish =>
      have hstate := finishFrame_state story f.id p
      rw [hfinish] at hstate
      exact hsettled hstate
  | moved _ hgroup _ hmove =>
      rcases hmove.once with hsame | ⟨key, hmark⟩
      · exact Or.inl hsame
      · exact Or.inr ⟨_, key, contains_of_group hgroup, hmark⟩
  | nodeFailed _ _ _ _ => exact Or.inl rfl

/-- An answer marks at most one name, that of the option. -/
theorem Answer.marked {index : Nat} (h : Answer story p index q) :
    p.once.Marked story q.once := by
  cases h with
  | @mk _ _ _ _ _ _ option _ _ _ hgroup _ _ =>
      by_cases honce : option.once = true
      · simp only [Player.push, honce, if_true]
        exact Or.inr ⟨_, _, contains_of_group hgroup, rfl⟩
      · simp only [Player.push, honce]
        exact Or.inl rfl

/-- The record stays proper on a step. -/
theorem Step.once {progress : Progress} (h : Step story p progress q)
    (hp : p.once.Proper story) : q.once.Proper story :=
  hp.marked h.marked

theorem Answer.once {index : Nat} (h : Answer story p index q) (hp : p.once.Proper story) :
    q.once.Proper story :=
  hp.marked h.marked

end StoryPlayer
