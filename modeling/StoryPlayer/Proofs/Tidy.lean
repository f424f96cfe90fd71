import StoryPlayer.Proofs.Encoding
import StoryPlayer.Proofs.Outcomes
import StoryPlayer.Proofs.Typing

/-!
# States that can be stored

Whatever happens to a story, its frames can be stored: variables are in order and finite, types are
not nested deeper than in the text of a bundle, and nodes are numbers of 64 bits.

- `Frame.Tidy` and `Player.Tidy` say so of a frame and of a state, `Story.Tidy` names what the story
  contributes to it,
- `Frames.tidy_of_writePath` and its relatives do so for what is written to variables,
- `Act.Tidies` says that an action keeps frames tidy and gives a result with a property; there is a
  lemma for every action that computes something.
-/

namespace StoryPlayer

/-! ## Conditions -/

/-- The greatest nesting of the document of a type that a story can declare. -/
def ScriptType.maxDepth : Nat := 122

/-- The fields are in order, and the type is not nested too deep. -/
structure ScriptType.Tidy (t : ScriptType) : Prop where
  ordered : t.Ordered
  shallow : t.toJson.depth ≤ maxDepth

/-- Declared types are tidy, and options can be numbered. -/
def Node.Tidy : Node → Prop
  | .declare _ d => d.type.Tidy
  | .choice _ _ options => options.length ≤ Json.maxSignificand
  | _ => True

structure Group.Tidy (g : Group) : Prop where
  length : g.nodes.length ≤ Json.maxSignificand
  nodes : ∀ node ∈ g.nodes, node.Tidy

structure Script.Tidy (s : Script) : Prop where
  params : ∀ param ∈ s.params, param.type.Tidy
  groups : ∀ entry ∈ s.groups, entry.2.Tidy

def Story.Tidy (story : Story) : Prop :=
  ∀ entry ∈ story.scripts, entry.2.Tidy

/-- The frame can be stored, and its types are not nested too deep. -/
structure Frame.Tidy (f : Frame) : Prop where
  storable : f.Storable fun x => x.isFinite = true
  shallow : ∀ entry ∈ f.types, entry.2.toJson.depth ≤ ScriptType.maxDepth

def Frames.Tidy (fs : List Frame) : Prop :=
  ∀ f ∈ fs, f.Tidy

/-- Frames, offered items and the record of what has been used can be stored. -/
structure Player.Tidy (p : Player) : Prop where
  frames : Frames.Tidy p.frames
  items : ∀ c ∈ p.pending, ∀ item ∈ c.items, item.index ≤ Json.maxSignificand
  once : Dict.Sorted p.once

variable {story : Story} {script : String} {p q : Player}

/-- Every group of a tidy story is tidy. -/
theorem Story.Tidy.group {id : String} {found : String × Group} (h : story.Tidy)
    (hgroup : story.group id = .ok found) : found.2.Tidy := by
  unfold Story.group at hgroup
  unfold Story.Tidy at h
  -- By induction on the scripts, in the order in which they are searched.
  generalize story.scripts = scripts at h hgroup
  induction scripts with
  | nil => cases hgroup
  | cons entry rest ih =>
      rcases entry with ⟨name, script⟩
      have hscript : script.Tidy := h (name, script) List.mem_cons_self
      simp only [Story.findGroup?] at hgroup
      cases hhere : Dict.get? script.groups id with
      | some here =>
          simp only [hhere] at hgroup
          cases hgroup
          exact hscript.groups (id, here) (Dict.mem_of_get? hhere)
      | none =>
          simp only [hhere] at hgroup
          exact ih (fun other hother => h other (List.mem_cons_of_mem _ hother)) hgroup

/-! ## Frames -/

namespace Frame

variable {f : Frame}

theorem Tidy.moved {node : Nat} (h : f.Tidy) (hnode : node ≤ Json.maxSignificand) :
    Tidy { f with node } :=
  ⟨⟨hnode, h.storable.scope, h.storable.sorted, h.storable.types, h.storable.continuation⟩,
    h.shallow⟩

/-- A frame at a node of its group may move on to the next one. -/
theorem Tidy.advanced {node : Node} (h : f.Tidy) (hstory : story.Tidy)
    (hcurrent : f.current? story = some node) : f.advanced.Tidy := by
  rcases current?_eq_some hcurrent with ⟨found, hgroup, hnode⟩
  have hlt : f.node < found.2.nodes.length := (List.getElem?_eq_some_iff.1 hnode).1
  exact h.moved (Nat.le_trans hlt (hstory.group hgroup).length)

/-- A finite value may be written to a variable. -/
theorem Tidy.assigned {name : String} {value : Value} (h : f.Tidy) (hvalue : value.Finite) :
    Tidy { f with scope := Dict.insert f.scope name value } := by
  have hscope : Dict.Storable (fun x => x.isFinite = true) (Dict.insert f.scope name value) := by
    refine ⟨Dict.sorted_insert h.storable.scope.sorted name value, fun entry hentry => ?_⟩
    rcases Dict.mem_of_mem_insert hentry with rfl | hold
    · exact hvalue
    · exact h.storable.scope.values entry hold
  exact ⟨⟨h.storable.node, hscope, h.storable.sorted, h.storable.types, h.storable.continuation⟩,
    h.shallow⟩

/-- A variable of a tidy type may be declared. -/
theorem Tidy.declared {name : String} {type : ScriptType} (h : f.Tidy) (htype : type.Tidy) :
    Tidy { f with types := Dict.insert f.types name type } := by
  have htypes : ∀ entry ∈ Dict.insert f.types name type, entry.2.Tidy := by
    intro entry hentry
    rcases Dict.mem_of_mem_insert hentry with rfl | hold
    · exact htype
    · exact ⟨h.storable.types entry hold, h.shallow entry hold⟩
  exact ⟨⟨h.storable.node, h.storable.scope, Dict.sorted_insert h.storable.sorted name type,
    fun entry hentry => (htypes entry hentry).ordered, h.storable.continuation⟩,
    fun entry hentry => (htypes entry hentry).shallow⟩

/-- The number of a frame does not matter. -/
theorem Tidy.numbered {id : UInt64} (h : f.Tidy) : Tidy { f with id } :=
  ⟨⟨h.storable.node, h.storable.scope, h.storable.sorted, h.storable.types,
    h.storable.continuation⟩, h.shallow⟩

theorem tidy_inner (group : String) (completion : Completion) :
    (Player.innerFrame group completion).Tidy :=
  ⟨⟨Nat.zero_le _, ⟨List.Pairwise.nil, by simp [Player.innerFrame]⟩, List.Pairwise.nil,
    by simp [Player.innerFrame], by simp [Player.innerFrame]⟩, by simp [Player.innerFrame]⟩

end Frame

namespace Frames

variable {fs gs : List Frame} {f : Frame} {name : String} {value : Value}

theorem Tidy.cons (hf : f.Tidy) (h : Tidy fs) : Tidy (f :: fs) := by
  intro g hg
  rcases List.mem_cons.1 hg with rfl | hg
  · exact hf
  · exact h g hg

theorem Tidy.head (h : Tidy (f :: fs)) : f.Tidy :=
  h f List.mem_cons_self

theorem Tidy.tail (h : Tidy (f :: fs)) : Tidy fs := fun g hg =>
  h g (List.mem_cons_of_mem _ hg)

/-- Fewer frames are tidy all the more. -/
theorem Tidy.subset (h : Tidy fs) (hsub : gs ⊆ fs) : Tidy gs := fun g hg =>
  h g (hsub hg)

theorem tidy_set (h : Tidy fs) (hvalue : value.Finite) : Tidy (set name value fs) := by
  induction fs with
  | nil => exact h
  | cons f below ih =>
      simp only [set]
      split
      · exact Tidy.cons (h.head.assigned hvalue) h.tail
      · exact Tidy.cons h.head (ih h.tail)

/-- Finite updates may be taken over. -/
theorem tidy_of_commit {updates : List (String × Value)} (h : Tidy fs)
    (hupdates : ∀ update ∈ updates, update.2.Finite) (hcommit : commit fs updates = .ok gs) :
    Tidy gs := by
  unfold commit at hcommit
  split at hcommit
  · cases hcommit
    -- One value is written after the other.
    clear * - h hupdates
    induction updates generalizing fs with
    | nil => exact h
    | cons update rest ih =>
        rw [List.foldl_cons]
        apply ih
        · exact tidy_set h (hupdates update List.mem_cons_self)
        · exact fun later hlater => hupdates later (List.mem_cons_of_mem _ hlater)
  · cases hcommit

/-- Variables have finite values. -/
theorem finite_of_value? (h : Tidy fs) (hvalue : value? fs name = some value) : value.Finite := by
  rcases Option.bind_eq_some_iff.1 hvalue with ⟨f, hf, hget⟩
  have hmem : f ∈ fs := List.mem_of_find?_eq_some hf
  exact (h f hmem).storable.scope.values _ (Dict.mem_of_get? hget)

/-- A finite value may be written to a path. -/
theorem tidy_of_writePath {path : String} (h : Tidy fs) (hvalue : value.Finite)
    (hwrite : writePath story fs path value = .ok gs) : Tidy gs := by
  rcases writePath_eq_ok.1 hwrite with ⟨_, old, new, -, hold, hassign, -, rfl⟩
  exact tidy_set h (Value.finite_of_assign (finite_of_value? h hold) hvalue hassign)

/-- What is written back are values of variables, so it is finite; it may stop on the way. -/
theorem tidy_writeBack {scope : Dict Value} {refs : Dict String} (h : Tidy fs)
    (hscope : ∀ entry ∈ scope, entry.2.Finite) : Tidy (writeBack story scope refs fs).2 := by
  induction refs generalizing fs with
  | nil => exact h
  | cons binding rest ih =>
      rcases binding with ⟨name, path⟩
      simp only [writeBack]
      split
      · exact h
      · next value hget =>
        split
        · exact h
        · next hwrite =>
          have hvalue := hscope _ (Dict.mem_of_get? hget)
          exact ih (tidy_of_writePath h hvalue hwrite)

theorem tidy_moveTo {id : UInt64} {node : Nat} (h : Tidy fs) (hnode : node ≤ Json.maxSignificand) :
    Tidy (moveTo id node fs) := by
  induction fs with
  | nil => exact h
  | cons f below ih =>
      simp only [moveTo]
      split
      · exact Tidy.cons h.head (ih h.tail)
      · split
        · exact Tidy.cons (h.head.moved hnode) h.tail
        · exact h

/-- A value that is passed by reference is part of a variable. -/
theorem finite_of_readRef {path : String} (h : Tidy fs)
    (hread : readRef story fs path = .ok value) : value.Finite := by
  rcases ok_of_bind hread with ⟨parsed, hparse, hrest⟩
  split at hrest
  · cases hrest
  · next hopen =>
    rcases ok_of_bind hrest with ⟨parsed', hparse', hrest⟩
    rw [hparse] at hparse'
    cases hparse'
    rcases ok_of_bind hrest with ⟨root, hroot, hrest⟩
    -- A name that no frame declares would have to be that of a document.
    have hdeclared : value? fs parsed.root = some root := by
      unfold read at hroot
      split at hroot
      · next found hfound =>
        cases hroot
        exact hfound
      · next hnone =>
        split at hroot
        · next document hdocument =>
          have hmissing : declaring? fs parsed.root = none := by
            cases hdeclaring : declaring? fs parsed.root with
            | none => rfl
            | some frame =>
                rcases value?_of_declaring hdeclaring with ⟨found, hfound⟩
                rw [hnone] at hfound
                cases hfound
          simp [hmissing, isDocument, Dict.contains, hdocument] at hopen
        · cases hroot
    split at hrest
    · next found hlookup =>
      cases hrest
      exact Value.finite_of_lookup (finite_of_value? h hdeclared) hlookup
    · cases hrest

end Frames

/-! ## Actions -/

/-- The action keeps frames tidy, and its result has the property. -/
def Act.Tidies {α : Type} (a : Act α) (Q : α → Prop) : Prop :=
  ∀ p x q, Frames.Tidy p.frames → a p = .ok (x, q) → Frames.Tidy q.frames ∧ Q x

namespace Act
namespace Tidies

variable {α β : Type} {a : Act α} {f : α → Act β} {Q : α → Prop} {R : β → Prop}

theorem pure {x : α} (h : Q x) : Tidies (Pure.pure x : Act α) Q := by
  intro p y q hp hrun
  rcases pure_eq_ok.1 hrun with ⟨rfl, rfl⟩
  exact ⟨hp, h⟩

/-- The second action starts with a result of the property. -/
theorem bind (ha : Tidies a Q) (hf : ∀ x, Q x → Tidies (f x) R) : Tidies (a >>= f) R := by
  intro p y q hp hrun
  rcases bind_eq_ok.1 hrun with ⟨x, r, hfirst, hrest⟩
  rcases ha p x r hp hfirst with ⟨hr, hx⟩
  exact hf x hx r y q hr hrest

theorem fail (fault : Fault) : Tidies (Act.fail fault : Act α) Q := by
  intro p y q _ hrun
  exact (fail_eq_ok.1 hrun).elim

theorem get : Tidies (MonadState.get : Act Player) fun p => Frames.Tidy p.frames := by
  intro p y q hp hrun
  rcases get_eq_ok.1 hrun with ⟨rfl, rfl⟩
  exact ⟨hp, hp⟩

/-- A computation outside of the state has the result that it has. -/
theorem liftM (e : Except Fault α) :
    Tidies (MonadLiftT.monadLift e : Act α) fun x => e = .ok x := by
  intro p y q hp hrun
  rcases liftM_eq_ok.1 hrun with ⟨he, rfl⟩
  exact ⟨hp, he⟩

theorem mono {Q' : α → Prop} (h : Tidies a Q) (hQ : ∀ x, Q x → Q' x) : Tidies a Q' := by
  intro p x q hp hrun
  rcases h p x q hp hrun with ⟨hq, hx⟩
  exact ⟨hq, hQ x hx⟩

end Tidies

abbrev TidiesOnly {α : Type} (a : Act α) : Prop :=
  Tidies a fun _ => True

variable (story : Story)

/-- Taking over finite updates leaves the frames tidy. -/
theorem tidies_accept {α : Type} {outcome : Formula.Outcome α}
    (h : ∀ update ∈ outcome.updates, update.2.Finite) :
    Tidies (accept outcome) fun x => x = outcome.result := by
  intro p x q hp hrun
  rcases bind_eq_ok.1 hrun with ⟨_, _, hget, hrest⟩
  rcases get_eq_ok.1 hget with ⟨rfl, rfl⟩
  rcases bind_eq_ok.1 hrest with ⟨frames, _, hlift, hrest⟩
  rcases liftM_eq_ok.1 hlift with ⟨hcommit, rfl⟩
  rcases bind_eq_ok.1 hrest with ⟨_, _, hset, hreturn⟩
  rcases set_eq_ok.1 hset with rfl
  rcases pure_eq_ok.1 hreturn with ⟨hresult, rfl⟩
  exact ⟨Frames.tidy_of_commit hp h hcommit, hresult.symm⟩

/-- An expression gives a finite value, or fails. -/
theorem tidies_evaluate (source : String) : Tidies (evaluate story source) Value.Finite := by
  refine Tidies.get.bind fun p _ => (Tidies.liftM _).bind fun outcome houtcome => ?_
  rcases Formula.finite_of_evaluate houtcome with ⟨hresult, hupdates⟩
  refine (tidies_accept hupdates).mono fun x hx => ?_
  rw [hx]
  exact hresult

theorem tidies_execute (source : String) : TidiesOnly (execute story source) := by
  refine Tidies.get.bind fun p _ => (Tidies.liftM _).bind fun outcome houtcome => ?_
  have hupdates := Formula.finite_of_execute houtcome
  exact (tidies_accept hupdates).mono fun _ _ => trivial

theorem tidies_condition (source : String) : TidiesOnly (condition story source) := by
  refine (tidies_evaluate story source).bind fun value _ => ?_
  cases value with
  | bool b => exact Tidies.pure trivial
  | _ => exact Tidies.fail _

theorem tidies_renderHoles (holes : List (String × String)) :
    TidiesOnly (renderHoles story holes) := by
  induction holes with
  | nil => exact Tidies.pure trivial
  | cons hole rest ih =>
      rcases hole with ⟨source, text⟩
      exact (tidies_evaluate story source).bind fun _ _ => ih.bind fun _ _ => Tidies.pure trivial

theorem tidies_render (text : String) : TidiesOnly (render story text) :=
  (tidies_renderHoles story _).bind fun _ _ => Tidies.pure trivial

theorem tidies_renderOptional (text : Option String) : TidiesOnly (renderOptional story text) := by
  cases text with
  | none => exact Tidies.pure trivial
  | some text => exact (tidies_render story text).bind fun _ _ => Tidies.pure trivial

theorem tidies_available (script : String) (option : ChoiceOption) :
    TidiesOnly (available story script option) := by
  refine Tidies.get.bind fun p _ => ?_
  split
  · exact Tidies.pure trivial
  · split
    · exact tidies_condition story _
    · exact Tidies.pure trivial

/-- No more options are found to be available than there are. -/
theorem tidies_filterAvailable (script : String) (options : List ChoiceOption) :
    Tidies (filterAvailable story script options) fun shown => shown.length ≤ options.length := by
  induction options with
  | nil => exact Tidies.pure (Nat.le_refl _)
  | cons option rest ih =>
      refine (tidies_available story script option).bind fun here _ => ?_
      refine ih.bind fun others hothers => Tidies.pure ?_
      split
      · exact Nat.succ_le_succ hothers
      · exact Nat.le_succ_of_le hothers

/-- Not more options are offered than there are. -/
theorem tidies_offered (script : String) (options : List ChoiceOption) :
    Tidies (offered story script options) fun shown => shown.length ≤ options.length := by
  refine (tidies_filterAvailable story script _).bind fun ordinary hordinary => ?_
  split
  · split
    · next option hoption =>
      -- The one that is fallen back on is one of the options.
      have hpos : 1 ≤ options.length := List.length_pos_of_mem (List.mem_of_find?_eq_some hoption)
      exact (tidies_filterAvailable story script [option]).mono fun _ hone => Nat.le_trans hone hpos
    · exact Tidies.pure (Nat.zero_le _)
  · exact Tidies.pure (Nat.le_trans hordinary (List.length_filter_le _ _))

theorem tidies_renderOptions (index : Nat) (options : List ChoiceOption) :
    TidiesOnly (renderOptions story index options) := by
  induction options generalizing index with
  | nil => exact Tidies.pure trivial
  | cons option rest ih =>
      exact (tidies_render story option.text).bind fun _ _ =>
        (ih (index + 1)).bind fun _ _ => Tidies.pure trivial

structure Passed.Tidy (passed : Passed) : Prop where
  values : ∀ entry ∈ passed.values, entry.2.Finite
  refs : Dict.Sorted passed.refs

theorem finite_passed {values : Dict Value} {name : String} {value : Value}
    (h : ∀ entry ∈ values, entry.2.Finite) (hvalue : value.Finite) :
    ∀ entry ∈ Dict.insert values name value, entry.2.Finite := by
  intro entry hentry
  rcases Dict.mem_of_mem_insert hentry with rfl | hold
  · exact hvalue
  · exact h entry hold

theorem tidies_passArgument (script : String) (param : Param) (argument : Argument)
    {passed : Passed} (h : passed.Tidy) :
    Tidies (passArgument story script param argument passed) Passed.Tidy := by
  unfold passArgument
  split
  · exact Tidies.fail _
  · split
    · refine Tidies.get.bind fun p hp => (Tidies.liftM _).bind fun value hvalue => Tidies.pure ?_
      have hfinite := Frames.finite_of_readRef hp hvalue
      exact ⟨finite_passed h.values hfinite, Dict.sorted_insert h.refs _ _⟩
    · refine (tidies_evaluate story _).bind fun value hvalue => Tidies.pure ?_
      exact ⟨finite_passed h.values hvalue, h.refs⟩

/-- The values of passed arguments are finite, and the references are in order. -/
theorem tidies_passArguments (script : String) (excess : Fault) (params : List Param)
    (arguments : List Argument) {passed : Passed} (h : passed.Tidy) :
    Tidies (passArguments story script excess params arguments passed) Passed.Tidy := by
  induction arguments generalizing params passed with
  | nil =>
      rw [passArguments]
      exact Tidies.pure h
  | cons argument rest ih =>
      cases params with
      | nil => exact Tidies.fail excess
      | cons param params =>
          exact (tidies_passArgument story script param argument h).bind fun _ hpassed =>
            ih params hpassed

/-- So are those for a script that takes over. -/
theorem tidies_transferArguments (script : String) (excess : Fault) (params : List Param)
    (arguments : List Argument) {values : Dict Value} (h : ∀ entry ∈ values, entry.2.Finite) :
    Tidies (transferArguments story script excess params arguments values)
      fun values => ∀ entry ∈ values, entry.2.Finite := by
  induction arguments generalizing params values with
  | nil =>
      rw [transferArguments]
      exact Tidies.pure h
  | cons argument rest ih =>
      cases params with
      | nil => exact Tidies.fail excess
      | cons param params =>
          have hfirst : Tidies (transferArgument story script param argument values)
              fun values => ∀ entry ∈ values, entry.2.Finite := by
            unfold transferArgument
            split
            · exact Tidies.fail _
            · exact (tidies_evaluate story _).bind fun _ hvalue =>
                Tidies.pure (finite_passed h hvalue)
          exact hfirst.bind fun _ hvalues => ih params hvalues

end Act

end StoryPlayer
