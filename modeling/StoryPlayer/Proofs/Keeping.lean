import StoryPlayer.Formula.Evaluation

/-!
# The variables of a machine

A computation may change the variables that are there and declare others, which lie further inside.
It never takes one away, and never puts one between those that are there.

- `Eval.Keeps` says so of a computation, whether it succeeds or is interrupted,
- the lemmas `Eval.Keeps.…` put computations together: a focus, the reach of declarations, rounds and
  sequences,
- the lemmas `Eval.keeps_…` are about the single operations of the machine.
-/

namespace StoryPlayer
namespace Formula

def Machine.names (m : Machine) : List String :=
  m.scope.map Binding.name

namespace Eval

variable {α β : Type} {m : Machine}

/-- The machine after a computation, whether it succeeds or is interrupted. -/
def after (x : Eval α) (m : Machine) : Machine :=
  match x m with
  | .ok _ m' => m'
  | .error _ m' => m'

/-- The variables that are there stay, and those that the computation declares lie inside of them. -/
def Keeps (x : Eval α) : Prop :=
  ∀ m, m.names <:+ (x.after m).names

/-! ## Putting computations together -/

namespace Keeps

/-- A computation that declares nothing. -/
theorem of_same {x : Eval α} (h : ∀ m, (x.after m).names = m.names) : Keeps x :=
  fun m => (h m).symm ▸ List.suffix_refl _

theorem pure (a : α) : Keeps (Pure.pure a : Eval α) :=
  of_same fun _ => rfl

/-- Also what is interrupted keeps the variables. -/
theorem throw (signal : Signal) : Keeps (MonadExcept.throw signal : Eval α) :=
  of_same fun _ => rfl

theorem raise (t : Trouble) : Keeps (Eval.raise t : Eval α) :=
  throw _

theorem lift (result : Except Trouble α) : Keeps (Eval.lift result) := by
  cases result with
  | ok a => exact pure a
  | error t => exact raise t

/-- The second computation starts with the variables that the first one has left. -/
theorem bind {x : Eval α} {f : α → Eval β} (hx : Keeps x) (hf : ∀ a, Keeps (f a)) :
    Keeps (x >>= f) := by
  intro m
  have hfirst := hx m
  change _ <:+ (after (EStateM.bind x f) m).names
  unfold after EStateM.bind
  unfold after at hfirst
  cases hrun : x m with
  | ok a m' =>
      rw [hrun] at hfirst
      exact hfirst.trans (hf a m')
  | error signal m' =>
      rw [hrun] at hfirst
      exact hfirst

/-- A change of the machine must not drop names. -/
theorem modify {f : Machine → Machine} (h : ∀ m, m.names <:+ (f m).names) :
    Keeps (MonadState.modifyGet fun m => ((), f m) : Eval Unit) :=
  h

/-- What comes after a look at the machine is about the machine that was seen. -/
theorem get {f : Machine → Eval α} (h : ∀ m, m.names <:+ ((f m).after m).names) :
    Keeps (MonadState.get >>= f) :=
  h

theorem look {f : Machine → Eval α} (h : ∀ m, Keeps (f m)) : Keeps (MonadState.get >>= f) :=
  get fun m => h m m

/-- After the machine was replaced by one with the same variables. -/
theorem set {m' : Machine} {x : Eval α} (hsame : m'.names = m.names) (hx : Keeps x) :
    m.names <:+ (after (MonadStateOf.set m' >>= fun _ => x) m).names :=
  hsame ▸ hx m'

/-- A computation for each of the items keeps the variables if each one does. -/
theorem mapM {f : α → Eval β} (h : ∀ a, Keeps (f a)) (items : List α) : Keeps (items.mapM f) := by
  induction items with
  | nil => exact pure []
  | cons a rest ih =>
      rw [List.mapM_cons]
      exact (h a).bind fun _ => ih.bind fun _ => pure _

theorem forM {f : α → Eval Unit} (h : ∀ a, Keeps (f a)) (items : List α) :
    Keeps (items.forM f) := by
  induction items with
  | nil => exact pure ()
  | cons a rest ih => exact (h a).bind fun _ => ih

theorem foldlM {f : β → α → Eval β} (h : ∀ b a, Keeps (f b a)) (b : β) (items : List α) :
    Keeps (items.foldlM f b) := by
  induction items generalizing b with
  | nil => exact pure b
  | cons a rest ih =>
      rw [List.foldlM_cons]
      exact (h b a).bind ih

end Keeps

/-! ## Operations of the machine -/

theorem keeps_tick : Keeps tick := by
  refine Keeps.get fun m => ?_
  split <;> exact List.suffix_refl _

theorem keeps_ticks (n : Nat) : Keeps (ticks n) := by
  induction n with
  | zero => exact Keeps.pure ()
  | succ n ih => exact keeps_tick.bind fun _ => ih

/-- Another slot is put into a variable. -/
@[simp]
theorem map_name_setSlot (name : String) (slot : Slot) (scope : List Binding) :
    (setSlot name slot scope).map Binding.name = scope.map Binding.name := by
  induction scope with
  | nil => rfl
  | cons binding rest ih =>
      simp only [setSlot]
      split
      · rfl
      · rw [List.map_cons, List.map_cons, ih]

/-- A declaration puts a name inside of all others. -/
theorem keeps_declare (name : String) (d : Datum) : Keeps (declare name d) :=
  Keeps.modify fun _ => List.suffix_cons _ _

theorem keeps_declareConstant (name : String) (d : Datum) : Keeps (declareConstant name d) :=
  Keeps.modify fun _ => List.suffix_cons _ _

theorem keeps_assign (name : String) (d : Datum) : Keeps (assign name d) := by
  refine Keeps.modify fun m => ?_
  split
  · simp [Machine.names]
  · exact List.suffix_refl _
  · exact List.suffix_refl _

/-- A variable that is moved to a cell stays under its name. -/
theorem keeps_share (name : String) : Keeps (share name) := by
  refine Keeps.modify fun m => ?_
  split
  · simp [Machine.names]
  · exact List.suffix_refl _

theorem keeps_read (ctx : Context) (name : String) : Keeps (read ctx name) := by
  refine Keeps.look fun m => ?_
  split
  · exact Keeps.pure _
  · split
    · exact Keeps.pure _
    · exact Keeps.raise _

theorem keeps_cell? (name : String) : Keeps (cell? name) := by
  refine Keeps.look fun m => ?_
  split <;> exact Keeps.pure _

theorem keeps_isOpen (name : String) : Keeps (isOpen name) := by
  refine Keeps.look fun m => ?_
  split <;> exact Keeps.pure _

theorem keeps_readSelf : Keeps readSelf := by
  refine Keeps.look fun m => ?_
  split
  · exact Keeps.pure _
  · exact Keeps.raise _

/-! ## The focus -/

/-- After a computation in focus the machine is that of the computation, with the focus put back. -/
theorem after_focusing (held : Held) (putBack : Datum → Machine → Machine) (x : Eval α)
    (m : Machine) : (focusing held putBack x).after m =
      putBack (x.after { m with focus := held }).focus.datum
        { x.after { m with focus := held } with focus := m.focus } := by
  unfold after focusing
  cases x { m with focus := held } <;> rfl

theorem Keeps.focusing {held : Held} {putBack : Datum → Machine → Machine} {x : Eval α}
    (hput : ∀ d m, (putBack d m).names = m.names) (hx : Keeps x) :
    Keeps (focusing held putBack x) := by
  intro m
  rw [after_focusing, hput]
  exact hx { m with focus := held }

theorem Keeps.onCopy {d : Datum} {x : Eval α} (hx : Keeps x) : Keeps (onCopy d x) :=
  Keeps.focusing (fun _ _ => rfl) hx

/-- The variable in focus keeps its place meanwhile. -/
theorem Keeps.onVariable {ctx : Context} {name : String} {x : Eval α} (hx : Keeps x) :
    Keeps (onVariable ctx name x) := by
  refine Keeps.get fun m => ?_
  split
  · exact (keeps_read ctx name).bind (fun _ => hx.onCopy) m
  · exact Keeps.set (by simp [Machine.names])
      (Keeps.focusing (fun _ _ => by simp [Machine.names]) hx)
  · exact Keeps.set rfl (Keeps.focusing (fun _ _ => rfl) hx)

theorem Keeps.onSelf {x : Eval α} (hx : Keeps x) : Keeps (onSelf x) := by
  refine Keeps.get fun m => ?_
  split
  · exact Keeps.raise _ m
  · exact Keeps.set rfl (Keeps.focusing (fun _ _ => rfl) hx)

theorem keeps_focused : Keeps focused :=
  Keeps.look fun _ => Keeps.pure _

theorem keeps_focusIs (p : Datum → Bool) : Keeps (focusIs p) :=
  Keeps.look fun _ => Keeps.pure _

theorem keeps_takeFocus : Keeps takeFocus :=
  Keeps.of_same fun _ => rfl

theorem keeps_refocus (d : Datum) : Keeps (refocus d) :=
  Keeps.modify fun _ => List.suffix_refl _

/-- A part in focus belongs to what was in focus before. -/
theorem Keeps.zoom {a : Access} {x : Eval α} (hx : Keeps x) : Keeps (zoom a x) := by
  refine keeps_takeFocus.bind fun whole => ?_
  split
  · exact (keeps_refocus whole).bind fun _ => Keeps.raise _
  · exact (keeps_refocus whole).bind fun _ => hx.onCopy
  · exact (keeps_refocus _).bind fun _ => Keeps.look fun _ => Keeps.focusing (fun _ _ => rfl) hx

theorem keeps_checkOpen : Keeps checkOpen := by
  refine Keeps.look fun m => ?_
  split
  · exact Keeps.raise _
  · exact Keeps.pure _

theorem keeps_change (d : Datum) : Keeps (change d) :=
  keeps_checkOpen.bind fun _ => keeps_refocus d

theorem keeps_listChange? (function : String) (arguments : List Datum) :
    Keeps (listChange? function arguments) := by
  refine (keeps_focusIs _).bind fun his => ?_
  split <;> exact Keeps.pure _

theorem keeps_changeList (f : ListChange) : Keeps (changeList f) := by
  refine keeps_checkOpen.bind fun _ => keeps_takeFocus.bind fun d => ?_
  split
  · exact (keeps_refocus _).bind fun _ => Keeps.lift _
  · exact (keeps_refocus _).bind fun _ => Keeps.raise _

/-! ## Reach of declarations -/

/-- The variables declared on top of those of another machine are forgotten. -/
theorem names_rewind {m' : Machine} (h : m.names <:+ m'.names) :
    (rewind m.scope.length m').names = m.names := by
  rcases h with ⟨inner, h⟩
  have hlength := congrArg List.length h
  simp only [Machine.names, List.length_append, List.length_map] at hlength
  have hinner : m'.scope.length - m.scope.length = inner.length := by omega
  calc (rewind m.scope.length m').names = m'.names.drop inner.length := by
        rw [← hinner, Machine.names, Machine.names, rewind, List.map_drop]
    _ = m.names := by rw [← h, List.drop_left]

/-- After a block only the variables that were there before it are left. -/
theorem after_within (x : Eval α) (m : Machine) :
    (within x).after m = rewind m.scope.length (x.after m) := by
  unfold after within
  cases x m <;> rfl

/-- A block forgets what it declares, and nothing else. -/
theorem Keeps.within {x : Eval α} (hx : Keeps x) : Keeps (within x) :=
  Keeps.of_same fun m => by rw [after_within, names_rewind (hx m)]

/-- A function has variables of its own; whatever it does, those outside come back. -/
theorem keeps_isolated (scope : List Binding) (onFocus : Bool) (x : Eval Datum) :
    Keeps (isolated scope onFocus x) := by
  refine Keeps.of_same fun m => ?_
  unfold after isolated
  by_cases hdeep : maxLevel ≤ m.level
  · simp only [hdeep, if_true]
  · simp only [hdeep, if_false]
    generalize x _ = result
    cases result with
    | ok d m' => rfl
    | error signal m' => cases signal <;> rfl

/-- The steps and the level of a call from the library are taken back. -/
theorem after_callback (x : Eval α) (m : Machine) : (callback x).after m =
    { x.after { m with level := m.level + 1 } with level := m.level, steps := m.steps } := by
  unfold after callback
  dsimp only
  cases x { m with level := m.level + 1 } <;> rfl

theorem Keeps.callback {x : Eval α} (hx : Keeps x) : Keeps (callback x) := by
  intro m
  rw [after_callback]
  exact hx { m with level := m.level + 1 }

/-! ## Troubles and rounds -/

/-- Variables are kept by what is attempted, and by the handler after it. -/
theorem Keeps.attempt {x : Eval Datum} {handler : Datum → Eval Datum} (hx : Keeps x)
    (hhandler : ∀ d, Keeps (handler d)) : Keeps (attempt x handler) := by
  intro m
  have hfirst := hx m
  unfold after at hfirst ⊢
  unfold Eval.attempt
  split at hfirst
  · next d m' hrun =>
    simp only [hrun]
    exact hfirst
  · next signal m' hrun =>
    simp only [hrun]
    cases signal with
    -- The handler goes on from the machine that the trouble has left behind.
    | trouble t =>
        have hlater := hfirst.trans (hhandler (payload t) m')
        unfold after at hlater
        by_cases hcatch : catchable t = true
        · simp only [hcatch, if_true]
          cases hhandle : handler (payload t) m' with
          | ok d' m'' =>
              rw [hhandle] at hlater
              exact hlater
          | error signal' m'' =>
              rw [hhandle] at hlater
              cases signal' <;> exact hlater
        · simp only [hcatch]
          exact hfirst
    | _ => exact hfirst

/-- A round, and then what is left to do if it gives no datum. -/
theorem Keeps.rounds {x : Eval (Option Datum)} {rest : Eval Datum} (hx : Keeps x)
    (hrest : Keeps rest) : Keeps (fun m =>
      match x m with
      | .ok none m' => rest m'
      | .ok (some d) m' => .ok d m'
      | .error signal m' => .error signal m') := by
  intro m
  have hfirst := hx m
  unfold after at hfirst ⊢
  dsimp only
  cases hrun : x m with
  | ok found m' =>
      rw [hrun] at hfirst
      cases found with
      | none => exact hfirst.trans (hrest m')
      | some d => exact hfirst
  | error signal m' =>
      rw [hrun] at hfirst
      exact hfirst

/-- A loop keeps the variables if each of its rounds does. -/
theorem Keeps.repeating {round : Eval (Option Datum)} (hround : Keeps round) (limit : Nat) :
    Keeps (repeating round limit) := by
  induction limit with
  | zero => exact Keeps.raise _
  | succ limit ih => exact hround.rounds ih

theorem Keeps.walking {round : Nat → Datum → Eval (Option Datum)}
    (hround : ∀ index d, Keeps (round index d)) (index : Nat) (items : List Datum) :
    Keeps (walking round index items) := by
  induction items generalizing index with
  | nil => exact Keeps.pure _
  | cons item rest ih => exact (hround index item).rounds (ih (index + 1))

theorem Keeps.counting {round : Nat → Datum → Eval (Option Datum)}
    (hround : ∀ index d, Keeps (round index d)) (low : Int) (index count : Nat) :
    Keeps (counting round low index count) := by
  induction count generalizing index with
  | zero => exact Keeps.pure _
  | succ count ih => exact (hround index _).rounds (ih (index + 1))

/-! ## Functions outside of the formula -/

theorem keeps_random : Keeps random := by
  refine Keeps.get fun m => ?_
  rcases Generator.next m.generator with ⟨number, generator⟩
  exact Keeps.set rfl (Keeps.pure _)

theorem keeps_hostFailure (fault : Fault) : Keeps (hostFailure fault : Eval α) :=
  Keeps.bind (Keeps.modify fun _ => List.suffix_refl _) fun _ => Keeps.raise _

theorem keeps_callHost (host : HostFunctions) (name : String) (arguments : List Datum) :
    Keeps (callHost host name arguments) := by
  unfold callHost
  split
  · exact keeps_hostFailure _
  · split
    · exact keeps_hostFailure _
    · exact Keeps.pure _

/-- Functions that are not part of the formula cannot declare variables. -/
theorem keeps_outside? {ctx : Context} {name : String} {arguments : List Datum} {x : Eval Effect}
    (h : outside? ctx name arguments = some x) : Keeps x := by
  unfold outside? at h
  split at h
  · cases h
    exact keeps_random.bind fun _ => Keeps.pure _
  · split at h
    · cases h
      exact Keeps.lift _
    · split at h
      · cases h
        exact (keeps_callHost _ _ _).bind fun _ => Keeps.pure _
      · cases h

theorem keeps_callModule (modules : List String) (name : String) (arguments : List Datum) :
    Keeps (callModule modules name arguments) := by
  unfold callModule
  split
  · split
    · exact (Keeps.lift _).bind fun _ => Keeps.pure _
    · exact Keeps.raise _
  · exact Keeps.raise _

theorem keeps_moduleConstant (modules : List String) (name : String) :
    Keeps (moduleConstant modules name) := by
  unfold moduleConstant
  split
  · exact Keeps.raise _
  · split
    · split
      · exact Keeps.pure _
      · exact Keeps.raise _
    · exact Keeps.raise _

/-! ## Sequences -/

theorem keeps_truth (d : Datum) : Keeps (truth d) := by
  cases d with
  | bool b => exact Keeps.pure b
  | _ => exact Keeps.raise _

theorem Keeps.inOrder {run : α → Eval Datum} (h : ∀ a, Keeps (run a)) (items : List α) :
    Keeps (inOrder run items) := by
  induction items with
  | nil => exact Keeps.pure _
  | cons a rest ih =>
      cases rest with
      | nil => exact h a
      | cons b rest => exact (h a).bind fun _ => ih

theorem Keeps.allAre {run : α → Eval Datum} (h : ∀ a, Keeps (run a)) (b : Bool)
    (items : List α) : Keeps (allAre b run items) := by
  induction items with
  | nil => exact Keeps.pure _
  | cons a rest ih =>
      refine (h a).bind fun d => (keeps_truth d).bind fun holds => ?_
      split
      · exact ih
      · exact Keeps.pure _

theorem Keeps.firstValue {run : α → Eval Datum} (h : ∀ a, Keeps (run a)) (items : List α) :
    Keeps (firstValue run items) := by
  induction items with
  | nil => exact Keeps.pure _
  | cons a rest ih =>
      refine (h a).bind fun d => ?_
      split
      · exact ih
      · exact Keeps.pure _

theorem Keeps.insertBy {before : Datum → Datum → Eval Bool} (h : ∀ a b, Keeps (before a b))
    (item : Datum) (items : List Datum) : Keeps (insertBy before item items) := by
  induction items with
  | nil => exact Keeps.pure _
  | cons last rest ih =>
      refine (h item last).bind fun comes => ?_
      split
      · exact ih.bind fun _ => Keeps.pure _
      · exact Keeps.pure _

/-- Comparisons are calls; they keep the variables if each one does. -/
theorem Keeps.sortBy {before : Datum → Datum → Eval Bool} (h : ∀ a b, Keeps (before a b))
    (items : List Datum) : Keeps (sortBy before items) :=
  (Keeps.foldlM (fun sorted item => Keeps.insertBy h item sorted) [] items).bind fun _ =>
    Keeps.pure _

theorem Keeps.result? {x : Eval Datum} (hx : Keeps x) : Keeps (result? x) := by
  intro m
  have hfirst := hx m
  unfold after at hfirst ⊢
  unfold Eval.result?
  cases hrun : x m <;> simpa [hrun] using hfirst

theorem Keeps.round {body : Eval Datum} (hbody : Keeps body) : Keeps (round body) := by
  intro m
  have hfirst := hbody.within m
  unfold after at hfirst ⊢
  unfold Eval.round
  cases hrun : Eval.within body m with
  | ok d m' =>
      rw [hrun] at hfirst
      exact hfirst
  | error signal m' =>
      rw [hrun] at hfirst
      cases signal <;> exact hfirst

theorem Keeps.roundOf {body : Eval Datum} (hbody : Keeps body) : Keeps (roundOf body) := by
  refine hbody.round.bind fun ending => ?_
  split <;> exact Keeps.pure _

theorem Keeps.overItems {round : Nat → Datum → Eval (Option Datum)}
    (hround : ∀ index d, Keeps (round index d)) (d : Datum) : Keeps (overItems round d) := by
  unfold Eval.overItems
  split
  · exact Keeps.walking hround _ _
  · exact Keeps.walking hround _ _
  · exact Keeps.counting hround _ _ _
  · exact Keeps.raise _

/-! ## Functions and assignments -/

theorem keeps_functionNamed (d : Datum) : Keeps (functionNamed d) := by
  unfold functionNamed
  split
  · split
    · exact Keeps.pure _
    · exact Keeps.raise _
  · exact Keeps.raise _

/-- To find out which function is meant leaves the variables alone. -/
theorem keeps_functionOf? {d : Datum} {x : Eval (String × List Datum)}
    (h : functionOf? d = some x) : Keeps x := by
  unfold functionOf? at h
  split at h
  · cases h
    exact Keeps.pure _
  · cases h
    split
    · exact Keeps.pure _
    · exact Keeps.raise _
  · cases h

theorem keeps_updated (op : Option Binary) (old new : Datum) : Keeps (updated op old new) := by
  unfold updated
  split
  · exact Keeps.pure _
  · exact (keeps_ticks _).bind fun _ => Keeps.lift _

theorem keeps_extendFocus (d : Datum) : Keeps (extendFocus d) := by
  refine keeps_takeFocus.bind fun whole => ?_
  split
  · exact keeps_refocus _
  · exact (keeps_refocus _).bind fun _ => (keeps_updated _ _ _).bind fun _ => keeps_refocus _

theorem keeps_assignFocus (op : Option Binary) (d : Datum) : Keeps (assignFocus op d) := by
  refine keeps_checkOpen.bind fun _ => ?_
  split
  · exact keeps_extendFocus d
  · exact keeps_focused.bind fun _ => (keeps_updated _ _ _).bind fun _ => keeps_refocus _

theorem keeps_assignMade (a : Access) (op : Option Binary) (d : Datum) :
    Keeps (assignMade a op d) := by
  refine keeps_focused.bind fun whole => (Keeps.lift _).bind fun part => ?_
  split
  · exact Keeps.raise _
  · refine (keeps_updated _ _ _).bind fun new => ?_
    split
    · exact keeps_refocus _
    · exact Keeps.raise _

/-- An assignment to a part changes data, not names. -/
theorem keeps_assignPart (a : Access) (op : Option Binary) (d : Datum) :
    Keeps (assignPart a op d) := by
  refine keeps_tick.bind fun _ => (keeps_focusIs _).bind fun ismap => ?_
  split
  · exact keeps_takeFocus.bind fun _ => (keeps_refocus _).bind fun _ =>
      (keeps_assignFocus op d).zoom
  · refine (keeps_focusIs _).bind fun islist => ?_
    split
    · exact (keeps_assignFocus op d).zoom
    · exact keeps_assignMade a op d

theorem Keeps.chosen {run : Expr → Eval Datum} (h : ∀ e, Keeps (run e)) (list : List Case) :
    Keeps (chosen run list) := by
  induction list with
  | nil => exact Keeps.pure _
  | cons first rest ih =>
      rcases first with ⟨keys, condition, body⟩
      unfold Eval.chosen
      have hpick : ∀ holds : Bool,
          Keeps (if holds = true then Pure.pure (some body) else Eval.chosen run rest) := by
        intro holds
        split
        · exact Keeps.pure _
        · exact ih
      dsimp only
      split
      · exact (Keeps.pure _).bind hpick
      · exact (h condition).bind fun d => (keeps_truth d).bind hpick

end Eval
end Formula
end StoryPlayer
