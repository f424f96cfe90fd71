import StoryPlayer.Formula.Access
import StoryPlayer.Generator
import StoryPlayer.Host

/-!
# The machine that runs formulas

The state of a run and the operations on its variables.  A computation works on a datum in place by
bringing it into focus; what has become of it is put back when the computation ends, also when it
fails.

- `Machine` is the state: variables, shared cells, the focus, the random number generator, counters,
- `Signal` is what interrupts the course of statements,
- `Eval` is a computation on the machine,
- `Eval.read`, `Eval.declare`, `Eval.share` work on variables,
- `Eval.onVariable`, `Eval.onSelf`, `Eval.onCopy`, `Eval.zoom` choose the focus,
- `Eval.within` and `Eval.isolated` bound the reach of declarations.
-/

namespace StoryPlayer
namespace Formula

/-- A datum in a place that holds it.  Of a constant the datum at its declaration is kept: the parts
that it had then cannot change. -/
structure Held where
  datum : Datum
  fixed : Option Datum := none

/-- Where the datum of a variable is kept: with the variable, or in a cell that closures share. -/
inductive Slot
  | own (held : Held)
  | cell (index : Nat)

structure Binding where
  name : String
  slot : Slot

structure Machine where
  /-- The variables, innermost first. -/
  scope : List Binding
  cells : Array Held
  /-- The cells that are in focus somewhere; no function that shares them can be called. -/
  locked : List Nat
  /-- What the running function was called on. -/
  self : Option Held
  /-- What the running computation works on in place. -/
  focus : Held
  /-- The number of functions that are running. -/
  level : Nat
  /-- The number of steps taken. -/
  steps : Nat
  generator : UInt32
  /-- The last failure of a host function. -/
  hostFault : Option Fault

inductive Signal
  | trouble (t : Trouble)
  /-- Ends the innermost loop with a datum. -/
  | leave (d : Datum)
  /-- Starts the next round of the innermost loop. -/
  | again
  /-- Ends the running function, or the whole formula, with a datum. -/
  | finish (d : Datum)
  /-- Ends the whole formula with a datum. -/
  | exit (d : Datum)

structure Context where
  routines : List Routine
  host : HostFunctions

abbrev Eval := EStateM Signal Machine

namespace Eval

variable {α : Type}

def maxSteps : Nat := 1000000

/-- The greatest number of functions running at a time. -/
def maxLevel : Nat := 64

def raise (t : Trouble) : Eval α :=
  throw (.trouble t)

def lift (result : Except Trouble α) : Eval α :=
  match result with
  | .ok a => return a
  | .error t => raise t

def tick : Eval Unit := do
  let m ← get
  if m.steps < maxSteps then set { m with steps := m.steps + 1 } else raise .exhausted

def ticks : Nat → Eval Unit
  | 0 => return
  | n + 1 => do
    tick
    ticks n

/-! ## Variables -/

def find? (name : String) (scope : List Binding) : Option Binding :=
  scope.find? fun binding => binding.name == name

def setSlot (name : String) (slot : Slot) : List Binding → List Binding
  | [] => []
  | binding :: rest =>
    if binding.name == name then { binding with slot } :: rest
    else binding :: setSlot name slot rest

def fetch (m : Machine) : Slot → Held
  | .own held => held
  | .cell index => m.cells[index]?.getD ⟨.unit, none⟩

def isRoutine (ctx : Context) (name : String) : Bool :=
  ctx.routines.any fun routine => routine.name == name

/-- Reads a variable; a name of no variable may be that of a function. -/
def read (ctx : Context) (name : String) : Eval Datum := do
  let m ← get
  match find? name m.scope with
  | some binding => return (fetch m binding.slot).datum
  | none => if isRoutine ctx name then return .function name [] else raise (.undefined name)

def declare (name : String) (d : Datum) : Eval Unit :=
  modify fun m => { m with scope := ⟨name, .own ⟨d, none⟩⟩ :: m.scope }

/-- Declares a constant, all parts of which are fixed. -/
def declareConstant (name : String) (d : Datum) : Eval Unit :=
  modify fun m => { m with scope := ⟨name, .own ⟨d, some d⟩⟩ :: m.scope }

def assign (name : String) (d : Datum) : Eval Unit :=
  modify fun m =>
    match (find? name m.scope).map Binding.slot with
    | some (.own _) => { m with scope := setSlot name (.own ⟨d, none⟩) m.scope }
    | some (.cell index) => { m with cells := m.cells.setIfInBounds index ⟨d, none⟩ }
    | none => m

def share (name : String) : Eval Unit :=
  modify fun m =>
    match (find? name m.scope).map Binding.slot with
    | some (.own held) =>
      { m with cells := m.cells.push held, scope := setSlot name (.cell m.cells.size) m.scope }
    | _ => m

def cell? (name : String) : Eval (Option Nat) := do
  match (find? name (← get).scope).map Binding.slot with
  | some (.cell index) => return some index
  | _ => return none

def isOpen (name : String) : Eval Bool := do
  match (find? name (← get).scope).map Binding.slot with
  | some (.own held) => return held.fixed.isNone
  | _ => return false

def readSelf : Eval Datum := do
  match (← get).self with
  | some held => return held.datum
  | none => raise .failed

/-! ## The focus -/

/-- Runs a computation with a focus of its own, then puts back what has become of it. -/
def focusing (held : Held) (putBack : Datum → Machine → Machine) (x : Eval α) : Eval α := fun m =>
  let outer := m.focus
  match x { m with focus := held } with
  | .ok a m' => .ok a (putBack m'.focus.datum { m' with focus := outer })
  | .error signal m' => .error signal (putBack m'.focus.datum { m' with focus := outer })

def onCopy (d : Datum) (x : Eval α) : Eval α :=
  focusing ⟨d, none⟩ (fun _ m => m) x

/-- Runs a computation on a variable in place.  While it is in focus its datum is nowhere else, and
nothing can read the variable. -/
def onVariable (ctx : Context) (name : String) (x : Eval α) : Eval α := do
  let m ← get
  match (find? name m.scope).map Binding.slot with
  -- The name of a function has no place to put anything back.
  | none => onCopy (← read ctx name) x
  | some (.own held) =>
    let fixed := held.fixed
    set { m with scope := setSlot name (.own ⟨.unit, fixed⟩) m.scope }
    focusing held (fun d m => { m with scope := setSlot name (.own ⟨d, fixed⟩) m.scope }) x
  | some (.cell index) =>
    let held := fetch m (.cell index)
    let fixed := held.fixed
    let locked := m.locked
    set { m with cells := m.cells.setIfInBounds index ⟨.unit, fixed⟩, locked := index :: locked }
    focusing held
      (fun d m => { m with cells := m.cells.setIfInBounds index ⟨d, fixed⟩, locked }) x

def onSelf (x : Eval α) : Eval α := do
  let m ← get
  match m.self with
  | none => raise .failed
  | some held =>
    let fixed := held.fixed
    set { m with self := some ⟨.unit, fixed⟩ }
    focusing held (fun d m => { m with self := some ⟨d, fixed⟩ }) x

def focused : Eval Datum :=
  return (← get).focus.datum

def focusIs (p : Datum → Bool) : Eval Bool :=
  return p (← get).focus.datum

/-- The datum in focus and the machine without it; apart, so that a change of the datum can reuse
its memory. -/
@[noinline] def splitFocus (m : Machine) : Datum × Machine :=
  let held := m.focus
  (held.datum, { m with focus := ⟨.unit, held.fixed⟩ })

def takeFocus : Eval Datum := fun m =>
  let (d, m) := splitFocus m
  .ok d m

def putPart (a : Access) (d : Datum) (m : Machine) : Machine :=
  let (whole, m) := splitFocus m
  { m with focus := { m.focus with datum := whole.withPart a d } }

/-- Changes the datum in focus, whether it is fixed or not. -/
def refocus (d : Datum) : Eval Unit :=
  modify fun m => { m with focus := { m.focus with datum := d } }

/-- Runs a computation on a part of the focus.  A part that lies in the focus leaves its place
meanwhile. -/
def zoom (a : Access) (x : Eval α) : Eval α := do
  let whole ← takeFocus
  match whole.part a with
  | .error t =>
    refocus whole
    raise t
  -- What is made for the occasion has no place to put anything back.
  | .ok (.made d) =>
    refocus whole
    onCopy d x
  | .ok (.inside d) =>
    refocus (whole.withPart a .unit)
    let fixed := (← get).focus.fixed
    focusing ⟨d, fixed.bind (Datum.inside? · a)⟩ (putPart a) x

def checkOpen : Eval Unit := do
  if (← get).focus.fixed.isSome then raise .failed

/-- Changes the datum in focus, which must not be fixed. -/
def change (d : Datum) : Eval Unit := do
  checkOpen
  refocus d

/-- The change that a function makes to the list in focus, if a list is there. -/
def listChange? (function : String) (arguments : List Datum) : Eval (Option ListChange) := do
  if ← focusIs Datum.isList then return Library.listChange? function arguments else return none

/-- Changes the list in focus, which must not be fixed. -/
def changeList (f : ListChange) : Eval Datum := do
  checkOpen
  match ← takeFocus with
  | .list items =>
    let (result, items) := f items
    refocus (.list items)
    lift result
  | d =>
    refocus d
    raise .failed

/-! ## Reach of declarations -/

/-- The machine without the variables declared since there were `size` of them. -/
def rewind (size : Nat) (m : Machine) : Machine :=
  { m with scope := m.scope.drop (m.scope.length - size) }

def within (x : Eval α) : Eval α := fun m =>
  let size := m.scope.length
  match x m with
  | .ok a m' => .ok a (rewind size m')
  | .error signal m' => .error signal (rewind size m')

/-- Runs the body of a function with variables of its own, called on the focus or on nothing.  If it
is called on the focus, its changes to that stay. -/
def isolated (scope : List Binding) (onFocus : Bool) (x : Eval Datum) : Eval Datum := fun m =>
  if maxLevel ≤ m.level then .error (.trouble .exhausted) m
  else
    let outer := m.scope
    let self := m.self
    let level := m.level
    let focus : Held := if onFocus then ⟨.unit, none⟩ else m.focus
    let subject := if onFocus then some m.focus else none
    let comeBack (m : Machine) : Machine :=
      { m with scope := outer, self, focus := if onFocus then m.self.getD focus else focus, level }
    -- A signal that ends a function goes no further.
    match x { m with scope, self := subject, focus, level := level + 1 } with
    | .ok d m' => .ok d (comeBack m')
    | .error (.finish d) m' => .ok d (comeBack m')
    | .error signal m' => .error signal (comeBack m')

/-- Runs a call that a function of the library makes; its steps are not counted. -/
def callback (x : Eval α) : Eval α := fun m =>
  let level := m.level
  let steps := m.steps
  match x { m with level := level + 1 } with
  | .ok a m' => .ok a { m' with level, steps }
  | .error signal m' => .error signal { m' with level, steps }

/-! ## Troubles -/

def catchable : Trouble → Bool
  | .exhausted => false
  | _ => true

def payload : Trouble → Datum
  | .thrown d => d
  | .undefined name => .map [("message", .text ("Variable not found: " ++ name))]
  | .noFunction signature => .map [("message", .text ("Function not found: " ++ signature))]
  | _ => .map [("message", .text "Runtime error")]

/-- The trouble says nothing, so a handler that raises it passes the caught one on. -/
def isSilent : Trouble → Bool
  | .thrown .unit => true
  | _ => false

/-- Runs a computation; a trouble that can be caught goes to the handler. -/
def attempt (x : Eval Datum) (handler : Datum → Eval Datum) : Eval Datum := fun m =>
  match x m with
  | .error (.trouble t) m' =>
    if catchable t then
      match handler (payload t) m' with
      | .ok _ m' => .ok .unit m'
      | .error (.trouble t') m' => .error (.trouble (if isSilent t' then t else t')) m'
      | .error signal m' => .error signal m'
    else .error (.trouble t) m'
  | result => result

/-! ## Rounds -/

/-- Repeats a round until it gives a datum, at most a number of times. -/
def repeating (round : Eval (Option Datum)) : Nat → Eval Datum
  | 0 => raise .exhausted
  | limit + 1 => fun m =>
    match round m with
    | .ok none m' => repeating round limit m'
    | .ok (some d) m' => .ok d m'
    | .error signal m' => .error signal m'

/-- Runs a round for every item, counted from `index`, until one gives a datum. -/
def walking (round : Nat → Datum → Eval (Option Datum)) : Nat → List Datum → Eval Datum
  | _, [] => return .unit
  | index, item :: rest => fun m =>
    match round index item m with
    | .ok none m' => walking round (index + 1) rest m'
    | .ok (some d) m' => .ok d m'
    | .error signal m' => .error signal m'

/-- Runs a round for `count` numbers from `low` on, until one gives a datum. -/
def counting (round : Nat → Datum → Eval (Option Datum)) (low : Int) : Nat → Nat → Eval Datum
  | _, 0 => return .unit
  | index, count + 1 => fun m =>
    match round index (.int (low + index)) m with
    | .ok none m' => counting round low (index + 1) count m'
    | .ok (some d) m' => .ok d m'
    | .error signal m' => .error signal m'

/-! ## Functions outside of the formula -/

def random : Eval Datum := do
  let m ← get
  let (number, generator) := Generator.next m.generator
  set { m with generator }
  return .int number.toNat

def hostFailure (fault : Fault) : Eval α := do
  modify fun m => { m with hostFault := some fault }
  raise (.thrown (.text fault.display))

/-- The greatest number of arguments of a host function. -/
def maxHostArguments : Nat := 4

def callHost (host : HostFunctions) (name : String) (arguments : List Datum) : Eval Datum :=
  match Datum.toItems arguments with
  -- An argument that cannot be passed counts as a failure of the function.
  | .error fault => hostFailure fault
  | .ok values =>
    match host.call name values with
    | .error fault => hostFailure fault
    | .ok value => return .ofValue value

/-- The call of a function that is not part of the formula and calls nothing back; none if there is
no such function. -/
def outside? (ctx : Context) (name : String) (arguments : List Datum) : Option (Eval Effect) :=
  if name == HostFunctions.randomName && arguments.isEmpty then
    some (return .pure (← random))
  else
    match Library.answer? name arguments with
    | some result => some (lift result)
    | none =>
      if ctx.host.names.contains name && arguments.length ≤ maxHostArguments then
        some (return .pure (← callHost ctx.host name arguments))
      else none

def pathName (modules : List String) (name : String) : String :=
  "::".intercalate (modules ++ [name])

def callModule (modules : List String) (name : String) (arguments : List Datum) : Eval Datum := do
  let signature := Datum.signature (pathName modules name) arguments
  if modules == [HostFunctions.mathName] then
    match Library.call Library.mathFunctions name arguments with
    | some result => return (← lift result).result
    | none => raise (.noFunction signature)
  else raise .failed

def moduleConstant (modules : List String) (name : String) : Eval Datum :=
  match modules with
  | [] => raise (.undefined name)
  | first :: inner =>
    if first == HostFunctions.mathName then
      match (if inner.isEmpty then Library.mathConstants.lookup name else none) with
      | some x => return .float x
      | none => raise (.undefined (pathName modules name))
    else raise .failed

end Eval
end Formula
end StoryPlayer
