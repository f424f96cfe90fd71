import StoryPlayer.Formula.Machine
import StoryPlayer.Formula.Purity
import StoryPlayer.Formula.Token

/-!
# Running formulas

What expressions and statements do on the machine.  The first argument of every function bounds the
depth of its recursion; `Program.fuel` is more than the machine's own limits let any run use.

- `Eval.expr` computes an expression,
- `Eval.follow` walks along the links of a chain,
- `Eval.call` calls a function by its name, `Eval.method` calls one on what is in focus,
- `Eval.statement` runs a statement and gives its datum,
- `Program.run` runs a whole formula.
-/

namespace StoryPlayer
namespace Formula

/-- A link whose parts have been computed. -/
inductive Step
  | access (a : Access)
  | method (function : String) (arguments : List Datum)

inductive Round
  | done
  | again
  | left (d : Datum)

namespace Eval

variable {α : Type}

def tooDeep : Eval α :=
  raise .exhausted

def truth : Datum → Eval Bool
  | .bool b => return b
  | _ => raise .failed

/-! ## Sequences -/

/-- Runs one after the other and gives the datum of the last. -/
def inOrder (run : α → Eval Datum) : List α → Eval Datum
  | [] => return .unit
  | [a] => run a
  | a :: rest => do
    let _ ← run a
    inOrder run rest

/-- The parts have the truth value up to the first that has not. -/
def allAre (b : Bool) (run : α → Eval Datum) : List α → Eval Datum
  | [] => return .bool b
  | a :: rest => do
    if (← truth (← run a)) == b then allAre b run rest else return .bool !b

def firstValue (run : α → Eval Datum) : List α → Eval Datum
  | [] => return .unit
  | a :: rest => do
    match ← run a with
    | .unit => firstValue run rest
    | d => return d

/-- Puts an item behind the items that it does not come before, given from the last on. -/
def insertBy (before : Datum → Datum → Eval Bool) (item : Datum) : List Datum → Eval (List Datum)
  | [] => return [item]
  | last :: rest => do
    if ← before item last then return last :: (← insertBy before item rest)
    else return item :: last :: rest

/-- Sorts items by a test of which comes before another; items that are alike keep their order. -/
def sortBy (before : Datum → Datum → Eval Bool) (items : List Datum) : Eval (List Datum) := do
  return (← items.foldlM (fun sorted item => insertBy before item sorted) []).reverse

/-- The datum that a computation gives; none if it is interrupted. -/
def result? (x : Eval Datum) : Eval (Option Datum) := fun m =>
  match x m with
  | .ok d m' => .ok (some d) m'
  | .error _ m' => .ok none m'

/-- The answer of a comparison says that the first item comes before the second. -/
def saysBefore : Option Datum → Bool
  | some (.int n) => n < 0
  | some (.bool b) => b
  | _ => false

def round (body : Eval Datum) : Eval Round := fun m =>
  match within body m with
  | .ok _ m' => .ok .done m'
  | .error (.leave d) m' => .ok (.left d) m'
  | .error .again m' => .ok .again m'
  | .error signal m' => .error signal m'

/-- Runs the body of a loop once; gives a datum if the loop is left. -/
def roundOf (body : Eval Datum) : Eval (Option Datum) := do
  match ← round body with
  | .left d => return some d
  | _ => return none

/-- Runs a round for every item of a datum; a datum without items cannot be walked through. -/
def overItems (round : Nat → Datum → Eval (Option Datum)) : Datum → Eval Datum
  | .list items => walking round 0 items.toList
  | .text s => walking round 0 (s.toList.map .char)
  | .range low high inclusive =>
    counting round low 0 ((if inclusive then high + 1 else high) - low).toNat
  | _ => raise .failed

/-! ## Functions -/

def routine? (ctx : Context) (name : String) (size : Nat) : Option Routine :=
  ctx.routines.find? fun routine => routine.name == name && routine.params.length == size

/-- The place of an argument: one that is a shared variable stays in its cell. -/
def slotOf : Datum → Slot
  | .cell index => .cell index
  | d => .own ⟨d, none⟩

def paramScope (routine : Routine) (arguments : List Datum) : List Binding :=
  (routine.params.zipWith Binding.mk (arguments.map slotOf)).reverse

def isLocked (m : Machine) : Datum → Bool
  | .cell index => m.locked.contains index
  | _ => false

def functionNamed : Datum → Eval Datum
  | .text s => if Token.namesFunction s then return .function s [] else raise .failed
  | _ => raise .failed

/-- The function that an argument of the library stands for: itself or its name. -/
def functionOf? : Datum → Option (Eval (String × List Datum))
  | .function name curried => some (return (name, curried))
  | .text s => some (if Token.namesFunction s then return (s, []) else raise .failed)
  | _ => none

def entryFunction? (d : Datum) (name : String) : Option (String × List Datum) :=
  match d with
  | .map entries =>
    match Dict.get? entries name with
    | some (.function name curried) => some (name, curried)
    | _ => none
  | _ => none

/-! ## Assignment -/

def updated (op : Option Binary) (old new : Datum) : Eval Datum :=
  match op with
  | none => return new
  | some op => do
    ticks (Operator.updateCost op old new)
    lift (Operator.update op old new)

/-- Adds to the end of the list or text in focus, or adds to what else is there. -/
def extendFocus (d : Datum) : Eval Unit := do
  match Operator.extended (← takeFocus) d with
  | .ok new => refocus new
  | .error old =>
    refocus old
    refocus (← updated (some .add) old d)

/-- Assigns to what is in focus, which must not be fixed. -/
def assignFocus (op : Option Binary) (d : Datum) : Eval Unit := do
  checkOpen
  match op with
  | some .add => extendFocus d
  | op => refocus (← updated op (← focused) d)

/-- Assigns to a part that is made of what is in focus, if it can be written. -/
def assignMade (a : Access) (op : Option Binary) (d : Datum) : Eval Unit := do
  let whole ← focused
  match ← lift (whole.part a) with
  | .inside _ => raise .failed
  | .made old =>
    match whole.withMade? a (← updated op old d) with
    | some new => refocus new
    | none => raise .failed

/-- Assigns to a part of what is in focus.  A map gets the entry first, even if the assignment then
fails. -/
def assignPart (a : Access) (op : Option Binary) (d : Datum) : Eval Unit := do
  tick
  if ← focusIs Datum.isMap then
    refocus ((← takeFocus).withEntry a)
    zoom a (assignFocus op d)
  else if (← focusIs Datum.isList) && a.isIndex then zoom a (assignFocus op d)
  else assignMade a op d

/-! ## Selection -/

/-- The cases that match a datum: those with the datum as a key, and if there are none those with a
span. -/
def matching (cases : List Case) (d : Datum) : List Case :=
  let byKey := cases.filter fun (.mk keys _ _) => keys.any (CaseKey.isDatum d)
  if byKey.isEmpty then cases.filter fun (.mk keys _ _) => keys.any (CaseKey.isSpanOf d) else byKey

/-- The body of the first case whose condition holds. -/
def chosen (run : Expr → Eval Datum) : List Case → Eval (Option Expr)
  | [] => return none
  | .mk _ condition body :: rest => do
    let holds ← match condition with
      | .constant (.bool b) => pure b
      | e => truth (← run e)
    if holds then return some body else chosen run rest

/-! ## Evaluation -/

mutual

def expr : Nat → Context → Expr → Eval Datum
  | 0, _, _ => tooDeep
  | fuel + 1, ctx, e => do
    tick
    compute fuel ctx e

/-- Computes an expression without a step of its own. -/
def compute : Nat → Context → Expr → Eval Datum
  | 0, _, _ => tooDeep
  | fuel + 1, ctx, e =>
    match e with
    | .constant d => return d
    | .pieces parts => do
      return .text (String.join ((← parts.mapM (expr fuel ctx)).map Datum.joined))
    | .list items => return .ofList (← items.mapM (expr fuel ctx))
    | .map entries => do
      let data ← entries.mapM fun (name, e) => return (name, ← expr fuel ctx e)
      return .map (Dict.ofList data)
    | .name s _ => read ctx s
    | .self => readSelf
    | .member modules s => moduleConstant modules s
    | .call function arguments => call fuel ctx function arguments
    | .moduleCall modules function arguments => do
      let data ← moduleArguments fuel ctx arguments
      -- To look for the function takes steps as well.
      if data.length ≤ 2 then ticks (Nat.pow 2 data.length)
      callModule modules function data
    | .unary op e => do
      match op, ← argument fuel ctx e with
      | .not, .bool b => return .bool !b
      | op, d =>
        tick
        lift (Operator.unary op d)
    | .binary op a b => do
      let x ← argument fuel ctx a
      let y ← argument fuel ctx b
      -- What is not built in is called, and a call is a step.
      match Operator.builtin? op x y with
      | some result => lift result
      | none =>
        tick
        lift (Operator.binary op x y)
    | .contains container item => do
      let whole ← argument fuel ctx container
      let part ← argument fuel ctx item
      onCopy whole (callFocused fuel ctx "contains" [part])
    | .both parts => allAre true (expr fuel ctx) parts
    | .either parts => allAre false (expr fuel ctx) parts
    | .orElse parts => firstValue (expr fuel ctx) parts
    | .chain root links => do
      -- Indices and arguments come first, so they cannot see what the methods change.
      let way ← steps fuel ctx links
      onRoot fuel ctx root (follow fuel ctx way focused)
    | .block body => within (inOrder (statement fuel ctx) body)

/-- Computes an argument; one that is written as a constant takes a single step. -/
def argument : Nat → Context → Expr → Eval Datum
  | 0, _, _ => tooDeep
  | fuel + 1, ctx, e =>
    match e.literal? with
    | some d => do
      tick
      return d
    | none => expr fuel ctx e

/-- Computes an argument that a function keeps; a shared variable stays in its cell. -/
def keptArgument : Nat → Context → Expr → Eval Datum
  | 0, _, _ => tooDeep
  | fuel + 1, ctx, e => do
    let d ← argument fuel ctx e
    match e with
    | .name s _ => return ((← cell? s).map Datum.cell).getD d
    | _ => return d

/-- Computes the arguments of a function of a module; a variable in front is read last. -/
def moduleArguments : Nat → Context → List Expr → Eval (List Datum)
  | 0, _, _ => tooDeep
  | fuel + 1, ctx, arguments => do
    match arguments with
    | .name s _ :: rest =>
      tick
      let data ← rest.mapM (argument fuel ctx)
      return (← read ctx s) :: data
    | arguments => arguments.mapM (argument fuel ctx)

/-- Computes the indices and arguments of links from left to right.  A single link with nothing to
compute takes no step. -/
def steps : Nat → Context → List Link → Eval (List Step)
  | 0, _, _ => tooDeep
  | fuel + 1, ctx, links => do
    let step (link : Link) : Eval Step :=
      match link with
      | .property s => return .access (.property s)
      | .index e => return .access (.index (← expr fuel ctx e))
      | .method function arguments =>
        return .method function (← arguments.mapM (argument fuel ctx))
    let counted (link : Link) : Eval Step := do
      tick
      step link
    match links with
    | [.property s] => return [.access (.property s)]
    | [.method function []] => return [.method function []]
    | [.index e] =>
      match (if e.isConstant then e.literal? else none) with
      | some d => return [.access (.index d)]
      | none => return [← counted (.index e)]
    | links => links.mapM counted

/-- Runs a computation on what a chain starts at, in place if that is a variable. -/
def onRoot : Nat → Context → Expr → Eval Datum → Eval Datum
  | 0, _, _, _ => tooDeep
  | fuel + 1, ctx, root, x =>
    match root with
    | .name s _ => do
      tick
      onVariable ctx s x
    | .self => do
      tick
      onSelf x
    | e => do
      let d ← expr fuel ctx e
      onCopy d x

/-- Follows steps from the focus on, then runs a computation on what they lead to. -/
def follow : Nat → Context → List Step → Eval Datum → Eval Datum
  | 0, _, _, _ => tooDeep
  | _ + 1, _, [], x => x
  | fuel + 1, ctx, .access a :: rest, x => do
    tick
    zoom a (follow fuel ctx rest x)
  | fuel + 1, ctx, .method function arguments :: rest, x => do
    let d ← method fuel ctx function arguments
    onCopy d (follow fuel ctx rest x)

def method : Nat → Context → String → List Datum → Eval Datum
  | 0, _, _, _ => tooDeep
  | fuel + 1, ctx, function, arguments => do
    let d ← focused
    match function, d, arguments with
    | "call", .function name curried, arguments =>
      apply fuel ctx name (curried ++ arguments) false
    | "call", _, .function name curried :: arguments =>
      apply fuel ctx name (curried ++ arguments) true
    | "call", _, _ => raise .failed
    | "curry", .function name curried, arguments =>
      return .function name (curried ++ arguments)
    | "curry", _, _ => raise .failed
    | "type_of", d, [] => return .text d.typeName
    | function, d, arguments =>
      match entryFunction? d function with
      | some (name, curried) => apply fuel ctx name (curried ++ arguments) true
      | none => apply fuel ctx function arguments true

/-- Calls a function with all its arguments, on what is in focus or on nothing. -/
def apply : Nat → Context → String → List Datum → Bool → Eval Datum
  | 0, _, _, _, _ => tooDeep
  | fuel + 1, ctx, function, arguments, onFocus =>
    match routine? ctx function arguments.length with
    | some routine => invoke fuel ctx routine arguments onFocus
    | none =>
      if onFocus then native fuel ctx function arguments
      else
        match arguments with
        | [] => do
          tick
          return (← outside fuel ctx function []).result
        | first :: rest => onCopy first (native fuel ctx function rest)

def call : Nat → Context → String → List Expr → Eval Datum
  | 0, _, _, _ => tooDeep
  | fuel + 1, ctx, function, arguments =>
    match function, arguments with
    | "Fn", [e] => do functionNamed (← argument fuel ctx e)
    | "curry", e :: kept => do
      match ← argument fuel ctx e with
      | .function name curried =>
        return .function name (curried ++ (← kept.mapM (keptArgument fuel ctx)))
      | _ => raise .failed
    | "call", e :: rest => do
      match ← argument fuel ctx e with
      -- With nothing kept this is a call by name, which may change a variable.
      | .function name [] => callNamed fuel ctx name rest
      | .function name curried =>
        apply fuel ctx name (curried ++ (← rest.mapM (argument fuel ctx))) false
      | _ => raise .failed
    | "is_shared", [e] => do
      match ← keptArgument fuel ctx e with
      | .cell _ => return .bool true
      | _ => return .bool false
    | "is_def_var", [e] => do
      match ← argument fuel ctx e with
      | .text s => return .bool (find? s (← get).scope).isSome
      | _ => raise .failed
    | "is_def_fn", [e, size] => do
      match ← argument fuel ctx e, ← argument fuel ctx size with
      | .text s, .int n => return .bool (0 ≤ n && (routine? ctx s n.toNat).isSome)
      | _, _ => raise .failed
    | function, arguments => callNamed fuel ctx function arguments

/-- Calls a function of the formula or from outside of it.  If the first argument is a variable, it
is read last, and a function from outside may change it. -/
def callNamed : Nat → Context → String → List Expr → Eval Datum
  | 0, _, _, _ => tooDeep
  | fuel + 1, ctx, function, arguments => do
    match arguments with
    | [] =>
      match routine? ctx function 0 with
      | some routine =>
        -- A function that does nothing is not entered.
        if routine.body.isEmpty then return .unit else invoke fuel ctx routine [] false
      | none =>
        tick
        return (← outside fuel ctx function []).result
    | .name s _ :: rest =>
      tick
      let data ← rest.mapM (argument fuel ctx)
      let x := callFocused fuel ctx function data
      if ← isOpen s then onVariable ctx s x else onCopy (← read ctx s) x
    | first :: rest =>
      let d ← argument fuel ctx first
      let data ← rest.mapM (argument fuel ctx)
      onCopy d (callFocused fuel ctx function data)

/-- Calls a function whose first argument is in focus. -/
def callFocused : Nat → Context → String → List Datum → Eval Datum
  | 0, _, _, _ => tooDeep
  | fuel + 1, ctx, function, rest => do
    let first ← focused
    match routine? ctx function (rest.length + 1) with
    | some routine =>
      -- A function that does nothing is not entered.
      if routine.body.isEmpty then return .unit
      else invoke fuel ctx routine (first :: rest) false
    | none =>
      if function == "type_of" && rest.isEmpty then return .text first.typeName
      else native fuel ctx function rest

/-- Calls a function from outside of the formula; what is in focus is its first argument, which it
may change. -/
def native : Nat → Context → String → List Datum → Eval Datum
  | 0, _, _, _ => tooDeep
  | fuel + 1, ctx, function, rest => do
    tick
    match ← listChange? function rest with
    | some f => changeList f
    | none =>
      let effect ← outside fuel ctx function ((← focused) :: rest)
      if let some first := effect.first then change first
      return effect.result

def invoke : Nat → Context → Routine → List Datum → Bool → Eval Datum
  | 0, _, _, _, _ => tooDeep
  | fuel + 1, ctx, routine, arguments, onFocus => do
    tick
    -- A shared variable that is in focus cannot be looked at.
    if arguments.any (isLocked (← get)) then raise .failed
    isolated (paramScope routine arguments) onFocus (inOrder (statement fuel ctx) routine.body)

/-- Calls a function from outside of the formula, which may call functions of the formula. -/
def outside : Nat → Context → String → List Datum → Eval Effect
  | 0, _, _, _ => tooDeep
  | fuel + 1, ctx, function, arguments => do
    let other : Eval Effect :=
      match outside? ctx function arguments with
      | some x => x
      | none => raise (.noFunction (Datum.signature function arguments))
    match function, arguments with
    | "exit", [] => throw (.exit .unit)
    | "exit", [d] => throw (.exit d)
    | "map", [.list items, f] =>
      match functionOf? f with
      | some f =>
        let (name, curried) ← f
        let data ← items.toList.zipIdx.mapM fun (item, index) =>
          callItem fuel ctx name curried item index
        return .pure (.ofList data)
      | none => other
    | "filter", [.list items, f] =>
      match functionOf? f with
      | some f =>
        let (name, curried) ← f
        let data ← items.toList.zipIdx.mapM fun (item, index) =>
          callItem fuel ctx name curried item index
        return .pure (.ofList ((items.toList.zip data).filterMap fun
          | (item, .bool true) => some item
          | _ => none))
      | none => other
    | "sort", [.list items, f] =>
      match functionOf? f with
      | some f =>
        let (name, curried) ← f
        let sorted ← sortBy (fun a b =>
          return saysBefore (← result? (callPair fuel ctx name curried a b))) items.toList
        return .change (.ofList sorted)
      | none => other
    | "index_of", .list items :: f :: rest =>
      match functionOf? f, Library.start? items.size rest with
      | some f, some start =>
        let (name, curried) ← f
        let found ← walking (fun index item => do
          match ← callItem fuel ctx name curried item index with
          | .bool true => return some (.int index)
          | _ => return none) start (items.toList.drop start)
        match found with
        | .int index => return .pure (.int index)
        | _ => return .pure (.int (-1))
      | _, _ => other
    | _, _ => other

/-- Calls a function for an item of a list: on the item, with the item, or with the item and its
position, whichever it can be called with first. -/
def callItem : Nat → Context → String → List Datum → Datum → Nat → Eval Datum
  | 0, _, _, _, _, _ => tooDeep
  | fuel + 1, ctx, name, curried, item, index => callback do
    let one := curried ++ [item]
    let two := one ++ [.int index]
    match routine? ctx name curried.length, outside? ctx name (item :: curried),
      routine? ctx name one.length, outside? ctx name one, routine? ctx name two.length with
    | some routine, _, _, _, _ => onCopy item (invoke fuel ctx routine curried true)
    | none, some x, _, _, _ => return (← x).result
    | none, none, some routine, _, _ => invoke fuel ctx routine one false
    | none, none, none, some x, _ => return (← x).result
    | none, none, none, none, some routine => invoke fuel ctx routine two false
    | none, none, none, none, none =>
      match outside? ctx name two with
      | some x => return (← x).result
      | none => raise (.noFunction (Datum.signature name two))

def callPair : Nat → Context → String → List Datum → Datum → Datum → Eval Datum
  | 0, _, _, _, _, _ => tooDeep
  | fuel + 1, ctx, name, curried, a, b => callback do
    let arguments := curried ++ [a, b]
    match routine? ctx name arguments.length, outside? ctx name arguments with
    | some routine, _ => invoke fuel ctx routine arguments false
    | none, some x => return (← x).result
    | none, none => raise (.noFunction (Datum.signature name arguments))

def statement : Nat → Context → Stmt → Eval Datum
  | 0, _, _ => tooDeep
  | fuel + 1, ctx, s => do
    tick
    let run (body : List Stmt) : Eval Datum := inOrder (statement fuel ctx) body
    let result (e : Option Expr) : Eval Datum :=
      match e with
      | some e => expr fuel ctx e
      | none => return .unit
    match s with
    | .noop => return .unit
    | .expr e => expr fuel ctx e
    | .perform e => compute fuel ctx e
    | .declare constant s e =>
      let d ← expr fuel ctx e
      if constant then declareConstant s d else declare s d
      return .unit
    | .assign target op e =>
      let d ← expr fuel ctx e
      assignTo fuel ctx target op d
      return .unit
    | .block body => within (run body)
    | .branch condition yes no =>
      if ← truth (← expr fuel ctx condition) then within (run yes) else within (run no)
    | .select subject cases otherwise =>
      let d ← expr fuel ctx subject
      match ← chosen (expr fuel ctx) (matching cases d) with
      | some body => expr fuel ctx body
      | none => result otherwise
    | .forever body =>
      repeating (do
        if body.isEmpty then tick
        roundOf (run body)) maxSteps
    | .repeatWhile condition body =>
      repeating (do
        if ← truth (← expr fuel ctx condition) then roundOf (run body)
        else return some .unit) maxSteps
    | .repeatAfter body condition goOn =>
      repeating (do
        match ← round (run body) with
        | .left d => return some d
        -- The next round starts without a look at the condition.
        | .again => return none
        | .done =>
          if (← truth (← expr fuel ctx condition)) == goOn then return none
          else return some .unit) maxSteps
    | .forEach s counter source body =>
      let d ← expr fuel ctx source
      -- The variables of the loop are the same ones in all rounds.
      within do
        if let some counter := counter then declare counter (.int 0)
        declare s .unit
        overItems (fun index item => do
          if let some counter := counter then Eval.assign counter (.int index)
          Eval.assign s item
          if body.isEmpty then tick
          roundOf (run body)) d
    | .leave e => throw (.leave (← result e))
    | .again => throw .again
    | .finish e => throw (.finish (← result e))
    | .throw e => raise (.thrown (← result e))
    | .attempt body caught handler =>
      attempt (within (run body)) fun d =>
        within do
          if let some name := caught then declare name d
          run handler
    | .load e =>
      let _ ← expr fuel ctx e
      raise .failed
    | .share names =>
      names.forM share
      return .unit

def assignTo : Nat → Context → Expr → Option Binary → Datum → Eval Unit
  | 0, _, _, _, _ => tooDeep
  | fuel + 1, ctx, target, op, d => do
    match target with
    | .name s _ =>
      tick
      -- A function is no variable.
      if (find? s (← get).scope).isNone && isRoutine ctx s then raise .failed
      onVariable ctx s (assignFocus op d)
    | .self =>
      tick
      onSelf (assignFocus op d)
    | .chain root links =>
      let way ← steps fuel ctx links
      match way.getLast? with
      | some (.access a) =>
        let _ ← onRoot fuel ctx root (follow fuel ctx way.dropLast do
          assignPart a op d
          return .unit)
      | _ => raise .failed
    | _ => raise .failed

end

end Eval

namespace Program

def fuel : Nat := 8 * Eval.maxSteps

/-- Runs a formula; to finish early is to succeed. -/
def run (program : Program) (host : HostFunctions) (m : Machine) : Except Trouble Datum × Machine :=
  match Eval.inOrder (Eval.statement fuel ⟨program.routines, host⟩) program.body m with
  | .ok d m' => (.ok d, m')
  | .error (.finish d) m' => (.ok d, m')
  | .error (.exit d) m' => (.ok d, m')
  | .error (.trouble t) m' => (.error t, m')
  | .error _ m' => (.error .failed, m')

end Program
end Formula
end StoryPlayer
