import StoryPlayer.Player.Step

/-!
# Frames without their numbers

Two states of a story may be the same except for the numbers of their frames.  What is read from
variables and written to them does not depend on these numbers.

- `Frame.View` holds of views of frames that show their groups and variables as they are; what
  formulas see and change is the same in such a view,
- `Frame.anonymous` is a frame without its number and without that of its caller,
- the lemmas `…_anonymous` say how the functions on stacks act on frames without numbers: what they
  look up is the same, and the stacks they return are the same without numbers,
- `Story.reseed` is a story with another seed; the seed is only used to start a script.
-/

namespace StoryPlayer

def Story.reseed (story : Story) (seed : UInt32) : Story :=
  { story with seed }

def Continuation.anonymous (c : Continuation) : Continuation :=
  { c with frame := 0 }

/-- The frame without its number and that of its caller. -/
def Frame.anonymous (f : Frame) : Frame :=
  { f with id := 0, continuation := f.continuation.map Continuation.anonymous }

def Pending.anonymous (c : Pending) : Pending :=
  { c with frame := 0 }

/-- Frames that are the same without numbers agree in everything else. -/
structure Frame.Matches (f g : Frame) : Prop where
  group : f.group = g.group
  node : f.node = g.node
  scope : f.scope = g.scope
  types : f.types = g.types
  root : f.root = g.root
  continuation : f.continuation.map Continuation.anonymous =
    g.continuation.map Continuation.anonymous

theorem Frame.matches_of_anonymous {f g : Frame} (h : f.anonymous = g.anonymous) :
    f.Matches g := by
  rcases Frame.mk.inj h with ⟨-, hgroup, hnode, hscope, htypes, -, hroot, hcontinuation⟩
  exact ⟨hgroup, hnode, hscope, htypes, hroot, hcontinuation⟩

/-! ## Views of frames -/

/-- The view shows the group and the variables of a frame as they are. -/
structure Frame.View (view : Frame → Frame) : Prop where
  group : ∀ f, (view f).group = f.group
  scope : ∀ f, (view f).scope = f.scope
  types : ∀ f, (view f).types = f.types
  declared : ∀ f scope types, view { f with scope, types } = { view f with scope, types }

namespace Frame.View

variable {view : Frame → Frame} (h : Frame.View view) (story : Story) (fs : List Frame)
include h

/-- A view finds the same frame for a name. -/
theorem declaring? (name : String) :
    Frames.declaring? (fs.map view) name = (Frames.declaring? fs name).map view := by
  unfold Frames.declaring?
  rw [List.find?_map]
  simp only [Function.comp_def, h.scope]

theorem documents : Frames.documents story (fs.map view) = Frames.documents story fs := by
  cases fs with
  | nil => rfl
  | cons f below => simp only [List.map_cons, Frames.documents, h.group]

/-- What formulas see does not depend on numbers. -/
theorem collect (seen : List String) :
    Frames.collect seen (fs.map view) = Frames.collect seen fs := by
  induction fs generalizing seen with
  | nil => rfl
  | cons f below ih => simp only [List.map_cons, Frames.collect, h.scope, ih]

/-- What a formula sees. -/
theorem bindings : Frames.bindings story (fs.map view) = Frames.bindings story fs := by
  unfold Frames.bindings
  rw [h.collect, h.documents]

theorem checkType (f : Frame) (name : String) (value : Value) :
    Frames.checkType (view f) name value = Frames.checkType f name value := by
  unfold Frames.checkType
  rw [h.types]

/-- Updates are accepted through a view if they are accepted. -/
theorem acceptsAll (updates : List (String × Value)) :
    Frames.acceptsAll (fs.map view) updates = Frames.acceptsAll fs updates := by
  induction updates with
  | nil => rfl
  | cons update rest ih =>
      have haccepts : Frames.accepts (fs.map view) update = Frames.accepts fs update := by
        unfold Frames.accepts
        rw [h.declaring?]
        cases Frames.declaring? fs update.1 with
        | none => rfl
        | some f => exact h.checkType f update.1 update.2
      simp only [Frames.acceptsAll, haccepts, ih]

/-- A write commutes with a view. -/
theorem set (name : String) (value : Value) :
    Frames.set name value (fs.map view) = (Frames.set name value fs).map view := by
  induction fs with
  | nil => rfl
  | cons f below ih =>
      have hset : view { f with scope := Dict.insert f.scope name value } =
          { view f with scope := Dict.insert f.scope name value } := by
        refine (h.declared f _ f.types).trans ?_
        rw [← h.types f]
      simp only [List.map_cons, Frames.set, h.scope, ih]
      split
      · rw [List.map_cons, hset]
      · rfl

/-- What a formula changes. -/
theorem commit (updates : List (String × Value)) :
    Frames.commit (fs.map view) updates =
      (Frames.commit fs updates).map fun frames => frames.map view := by
  unfold Frames.commit
  rw [h.acceptsAll]
  cases Frames.acceptsAll fs updates with
  | error fault => rfl
  | ok _ =>
      have hfold : ∀ frames : List Frame,
          updates.foldl (fun frames update => Frames.set update.1 update.2 frames)
              (frames.map view) =
            (updates.foldl (fun frames update => Frames.set update.1 update.2 frames) frames).map
              view := by
        induction updates with
        | nil => exact fun _ => rfl
        | cons update rest ih =>
            intro frames
            rw [List.foldl_cons, h.set, ih, List.foldl_cons]
      simp only [hfold]
      rfl

end Frame.View

/-- Numbers are not seen by formulas. -/
theorem Frame.anonymous_view : Frame.View Frame.anonymous :=
  ⟨fun _ => rfl, fun _ => rfl, fun _ => rfl, fun _ _ _ => rfl⟩

namespace Frames

variable (story : Story) (seed : UInt32) (fs : List Frame)

/-! ## Looking up -/

theorem declaring?_anonymous (name : String) :
    declaring? (fs.map Frame.anonymous) name = (declaring? fs name).map Frame.anonymous :=
  Frame.anonymous_view.declaring? fs name

theorem value?_anonymous (name : String) :
    value? (fs.map Frame.anonymous) name = value? fs name := by
  unfold value?
  rw [declaring?_anonymous]
  cases declaring? fs name <;> rfl

theorem documents_anonymous : documents story (fs.map Frame.anonymous) = documents story fs :=
  Frame.anonymous_view.documents story fs

theorem isDocument_anonymous (name : String) :
    isDocument story (fs.map Frame.anonymous) name = isDocument story fs name := by
  unfold isDocument
  rw [documents_anonymous]

/-- A name means the same without numbers. -/
theorem read_anonymous (name : String) :
    read story (fs.map Frame.anonymous) name = read story fs name := by
  unfold read
  rw [value?_anonymous, documents_anonymous]

/-- A path leads to the same value without numbers. -/
theorem readPath_anonymous (text : String) :
    readPath story (fs.map Frame.anonymous) text = readPath story fs text := by
  unfold readPath
  simp only [read_anonymous]

theorem readRef_anonymous (text : String) :
    readRef story (fs.map Frame.anonymous) text = readRef story fs text := by
  unfold readRef
  simp only [declaring?_anonymous, isDocument_anonymous, readPath_anonymous, Option.isNone_map]

theorem unwritable_anonymous (name : String) :
    unwritable story (fs.map Frame.anonymous) name = unwritable story fs name := by
  unfold unwritable
  rw [isDocument_anonymous]

/-! ## Writing -/

theorem set_anonymous (name : String) (value : Value) :
    set name value (fs.map Frame.anonymous) = (set name value fs).map Frame.anonymous :=
  Frame.anonymous_view.set fs name value

theorem write_anonymous (name : String) (value : Value) :
    write story (fs.map Frame.anonymous) name value =
      (write story fs name value).map fun frames => frames.map Frame.anonymous := by
  unfold write
  rw [declaring?_anonymous, set_anonymous, unwritable_anonymous]
  cases declaring? fs name with
  | none => rfl
  | some f =>
      have htype : checkType f.anonymous name value = checkType f name value := rfl
      simp only [Option.map_some, htype]
      cases checkType f name value <;> rfl

/-- A path is written in the same way without numbers, and fails with the same fault. -/
theorem writePath_anonymous (text : String) (value : Value) :
    writePath story (fs.map Frame.anonymous) text value =
      (writePath story fs text value).map fun frames => frames.map Frame.anonymous := by
  unfold writePath
  cases Path.parse text with
  | error fault => rfl
  | ok path =>
      simp only [bind, Except.bind, write_anonymous, value?_anonymous, unwritable_anonymous]
      split
      · rfl
      · cases value? fs path.root with
        | none => rfl
        | some root =>
            simp only
            cases root.assign path.rest value <;> rfl

/-- Handing values over commutes with forgetting numbers, also where it stops half-way. -/
theorem writeBack_anonymous (scope : Dict Value) (refs : Dict String) :
    writeBack story scope refs (fs.map Frame.anonymous) =
      ((writeBack story scope refs fs).1,
        (writeBack story scope refs fs).2.map Frame.anonymous) := by
  induction refs generalizing fs with
  | nil => rfl
  | cons binding rest ih =>
      rcases binding with ⟨name, path⟩
      simp only [writeBack]
      cases Dict.get? scope name with
      | none => rfl
      | some value =>
          simp only [writePath_anonymous]
          cases writePath story fs path value with
          | error fault => rfl
          | ok frames => exact ih frames

/-! ## Parts of the stack -/

theorem currentRoot?_anonymous :
    currentRoot? (fs.map Frame.anonymous) =
      (currentRoot? fs).map fun found => (found.1.anonymous, found.2.map Frame.anonymous) := by
  induction fs with
  | nil => rfl
  | cons f below ih =>
      have hroot : f.anonymous.root = f.root := rfl
      simp only [List.map_cons, currentRoot?, hroot, ih]
      split <;> rfl

/-- The innermost loop is found without numbers. -/
theorem belowLoop?_anonymous :
    Act.belowLoop? (fs.map Frame.anonymous) =
      (Act.belowLoop? fs).map fun below => below.map Frame.anonymous := by
  induction fs with
  | nil => rfl
  | cons f below ih =>
      have hcompletion : f.anonymous.completion = f.completion := rfl
      have hroot : f.anonymous.root = f.root := rfl
      simp only [List.map_cons, Act.belowLoop?, hcompletion, hroot, ih]
      split
      · rfl
      · split <;> rfl

/-! ## Another seed -/

/-- The seed of a story plays no part when values are handed over. -/
theorem writeBack_reseed (scope : Dict Value) (refs : Dict String) :
    writeBack (story.reseed seed) scope refs fs = writeBack story scope refs fs := by
  induction refs generalizing fs with
  | nil => rfl
  | cons binding rest ih =>
      have hwrite : ∀ path value,
          writePath (story.reseed seed) fs path value = writePath story fs path value :=
        fun _ _ => rfl
      simp only [writeBack, ih, hwrite]

end Frames
end StoryPlayer
