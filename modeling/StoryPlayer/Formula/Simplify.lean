import StoryPlayer.Formula.Simplify.Rules

/-!
# Simplified formulas

A formula is simplified before it runs: constants are put in for the names that are declared as
constants, what constants determine is computed, and what does nothing is dropped.  Blocks are gone
through again until nothing changes.

- `Known` is what is known at a place of a formula, `Simplify` the monad of the traversal,
- `Simplify.expr`, `Simplify.statement`, `Simplify.block` simplify parts,
- `Program.simplified` simplifies a formula and its functions; closures stay as they are.
-/

namespace StoryPlayer
namespace Formula

/-- What is known at a place of a formula. -/
structure Known where
  /-- The names declared so far, innermost first, with the data of constants. -/
  names : List (String × Option Datum)
  /-- Something has been simplified. -/
  changed : Bool

abbrev Simplify := StateM Known

namespace Simplify

open Rule

variable {α : Type}

def note : Simplify Unit :=
  modify fun k => { k with changed := true }

def rewritten (old : α) (new : Option α) : Simplify α :=
  match new with
  | some a => do
    note
    return a
  | none => return old

def constant? (s : String) : Simplify (Option Datum) := do
  match (← get).names.find? fun entry => entry.1 == s with
  | some (_, d) => return d
  | none => return none

def declare (s : String) (d : Option Datum) : Simplify Unit :=
  modify fun k => { k with names := (s, d) :: k.names }

def locally (x : Simplify α) : Simplify α := do
  let names := (← get).names
  let a ← x
  modify fun k => { k with names }
  return a

/-- Repeats a pass until it changes nothing, at most a number of times. -/
def untilSettled (pass : List Stmt → Simplify (List Stmt)) :
    Nat → List Stmt → Simplify (List Stmt)
  | 0, body => return body
  | limit + 1, body => do
    let before := (← get).changed
    modify fun k => { k with changed := false }
    let body ← pass body
    if (← get).changed then
      let body ← untilSettled pass limit body
      note
      return body
    else
      modify fun k => { k with changed := before }
      return body

mutual

/-- The statements of a statement that is a block without declarations, or the statement itself. -/
def flattenOne : Stmt → List Stmt
  | .block body => if body.any Stmt.isBlockDependent then [.block body] else flatten body
  | s => [s]

def flatten : List Stmt → List Stmt
  | [] => []
  | s :: rest => flattenOne s ++ flatten rest

end

def isFlat : Stmt → Bool
  | .block body => !body.any Stmt.isBlockDependent
  | _ => false

def shortened (old new : List Stmt) : Simplify (List Stmt) :=
  rewritten old (if new.length < old.length then some new else none)

mutual

def expr : Nat → Expr → Simplify Expr
  | 0, e => return e
  | fuel + 1, e => do
    match e with
    | .constant d => return .constant d
    | .pieces parts =>
      match known? e with
      | some d => rewritten e (some (.constant d))
      | none =>
        let parts ← parts.mapM (expr fuel)
        return .pieces (← rewritten parts (pieces? parts))
    | .list items =>
      match known? e with
      | some d => rewritten e (some (.constant d))
      | none => return .list (← items.mapM (expr fuel))
    | .map entries =>
      match known? e with
      | some d => rewritten e (some (.constant d))
      | none => return .map (← entries.mapM fun (s, e) => return (s, ← expr fuel e))
    | .name s declared => rewritten (.name s declared) ((← constant? s).map .constant)
    | .self => return .self
    | .member modules s => return .member modules s
    | .call function arguments =>
      match call? function arguments with
      | some e => rewritten e (some e)
      | none =>
        if quiet.contains function then return .call function (← arguments.mapM (expr fuel))
        else return .call function (← arguments.mapM (argument fuel))
    | .moduleCall modules function arguments =>
      return .moduleCall modules function (← arguments.mapM (argument fuel))
    | .unary op e =>
      match unary? op e with
      | some e => rewritten e (some e)
      | none => return .unary op (← argument fuel e)
    | .binary op a b =>
      match binary? op a b with
      | some e => rewritten e (some e)
      | none => return .binary op (← argument fuel a) (← argument fuel b)
    | .contains container item =>
      return .contains (← argument fuel container) (← argument fuel item)
    | .both parts =>
      let parts ← parts.mapM (expr fuel)
      rewritten (.both parts) (connective? true parts)
    | .either parts =>
      let parts ← parts.mapM (expr fuel)
      rewritten (.either parts) (connective? false parts)
    | .orElse parts =>
      let parts ← parts.mapM (expr fuel)
      rewritten (.orElse parts) (fallback? parts)
    | .chain root links =>
      match chain? root links with
      | some e => rewritten e (some e)
      | none =>
        let root ← match root with
          | .name s declared => pure (.name s declared)
          | .self => pure .self
          | root => expr fuel root
        return .chain root (← links.mapM (link fuel))
    | .block [] => rewritten e (some .unit)
    | .block [.expr e] =>
      note
      expr fuel e
    | .block body =>
      match ← block fuel .value body with
      | [.expr e] => rewritten e (some e)
      | body => return .block body

def argument : Nat → Expr → Simplify Expr
  | 0, e => return e
  | fuel + 1, e => do
    let e ← expr fuel e
    rewritten e (moved? e)

def link : Nat → Link → Simplify Link
  | 0, l => return l
  | fuel + 1, l => do
    match l with
    | .property s => return .property s
    | .index e => return .index (← expr fuel e)
    | .method function arguments =>
      return .method function (← arguments.mapM (argument fuel))

def block : Nat → Purpose → List Stmt → Simplify (List Stmt)
  | 0, _, body => return body
  | fuel + 1, purpose, body => do
    let body ← rewritten body (if body.any isFlat then some (flatten body) else none)
    untilSettled (pass fuel purpose) fuel body

def pass : Nat → Purpose → List Stmt → Simplify (List Stmt)
  | 0, _, body => return body
  | fuel + 1, purpose, body => locally do
    let body ← shortened body (live body)
    let body ← body.mapM (member fuel purpose.keepsValue)
    let body ← shortened body (withoutPure purpose body)
    rewritten body (trimEnd? purpose body)

def member : Nat → Bool → Stmt → Simplify Stmt
  | 0, _, s => return s
  | fuel + 1, keepsValue, s => do
    match s with
    | .declare constant name e =>
      let e ← expr fuel e
      -- Only what follows sees the name.
      declare name (if constant then known? e else none)
      return .declare constant name e
    | s => statement fuel keepsValue s

def statement : Nat → Bool → Stmt → Simplify Stmt
  | 0, _, s => return s
  | fuel + 1, keepsValue, s => do
    let purpose : Purpose := if keepsValue then .value else .effect
    let promoted (body : List Stmt) : Simplify Stmt := do
      note
      match ← block fuel purpose body with
      | [] => return .noop
      | body => return .block body
    match s with
    | .noop => return .noop
    | .expr (.block []) => rewritten s (some .noop)
    | .expr (.block body) =>
      note
      return .block (← block fuel .value body)
    | .expr e => if e.isCall then rewritten s (some (.perform e)) else return .expr (← expr fuel e)
    | .perform e =>
      let e ← expr fuel e
      return if e.isCall then .perform e else .expr e
    | .declare constant name e => return .declare constant name (← expr fuel e)
    | .assign target op e =>
      match update? target op e with
      | some s => rewritten s (some s)
      | none =>
        let target ← match target with
          | .chain root links => expr fuel (.chain root links)
          | target => pure target
        return .assign target op (← expr fuel e)
    | .block body =>
      match ← block fuel purpose body with
      | [] => rewritten s (some .noop)
      | [s] => if s.isBlockDependent then return .block [s] else rewritten s (some s)
      | body => return .block body
    | .branch condition [] [] =>
      note
      -- The condition stays, because it may fail.
      let e ← expr fuel condition
      return if keepsValue then .block [.expr e, .noop] else .expr e
    | .branch (.constant (.bool false)) _ [] => rewritten s (some .noop)
    | .branch (.constant (.bool true)) yes _ => promoted yes
    | .branch (.constant (.bool false)) _ no => promoted no
    | .branch condition yes no =>
      let condition ← expr fuel condition
      let yes ← block fuel purpose yes
      return .branch condition yes (← block fuel purpose no)
    | .select subject cases otherwise => select fuel subject cases otherwise
    | .forever body => return .forever (← block fuel .effect body)
    | .repeatWhile (.constant (.bool false)) _ => rewritten s (some .noop)
    | .repeatWhile condition body =>
      match ← expr fuel condition with
      | .constant (.bool true) => return .forever (← block fuel .effect body)
      | condition => return .repeatWhile condition (← block fuel .effect body)
    | .repeatAfter body condition goOn =>
      let condition ← expr fuel condition
      return .repeatAfter (← block fuel .effect body) condition goOn
    | .forEach name counter source body =>
      let source ← expr fuel source
      return .forEach name counter source (← block fuel .effect body)
    | .leave e => return .leave (← e.mapM (expr fuel))
    | .again => return .again
    | .finish e => return .finish (← e.mapM (expr fuel))
    | .throw e => return .throw (← e.mapM (expr fuel))
    | .attempt body caught handler =>
      -- What cannot fail needs no handler.
      if Stmt.allPure body then
        note
        return .block (← block fuel .effect body)
      else
        let body ← block fuel .effect body
        return .attempt body caught (← block fuel .effect handler)
    | .load e => return .load (← expr fuel e)
    | .share [] => rewritten s (some .noop)
    | .share names =>
      -- Constants have been put in, so there is nothing left to share.
      let kept ← names.filterM fun name => return (← constant? name).isNone
      return .share (← rewritten names (if kept.length < names.length then some kept else none))

def select : Nat → Expr → List Case → Option Expr → Simplify Stmt
  | 0, subject, cases, otherwise => return .select subject cases otherwise
  | fuel + 1, subject, cases, otherwise => do
    let taken (e : Expr) : Simplify Stmt := do
      note
      statement fuel true (.expr e)
    match known? subject with
    | some d =>
      match selection d cases with
      | .taken body => taken body
      | .tested condition body =>
        note
        let condition ← expr fuel condition
        match otherwise with
        | some e => return .branch condition [.expr body] [← statement fuel true (.expr e)]
        | none => return .branch condition [.expr body] []
      | .narrowed found =>
        if found.length < cases.length then note
        return .select subject (← found.mapM (case fuel)) otherwise
      | .missed =>
        match otherwise with
        | some e => taken e
        | none =>
          note
          return .block []
    | none =>
      let subject ← expr fuel subject
      let cases ← cases.mapM (case fuel)
      let possible := cases.filter fun case => !isImpossible case
      if possible.length < cases.length then note
      return .select subject possible (← otherwise.mapM (expr fuel))

def case : Nat → Case → Simplify Case
  | 0, c => return c
  | fuel + 1, .mk keys condition body => do
    let condition ← expr fuel condition
    return .mk keys condition (← expr fuel body)

end

def depth : Nat := 4096

def body (statements : List Stmt) : List Stmt :=
  (block depth .whole statements ⟨[], false⟩).1

end Simplify

/-- The function with a simplified body; a closure stays as it is. -/
def Routine.simplified (routine : Routine) : Routine :=
  if routine.isClosure then routine else { routine with body := Simplify.body routine.body }

def Program.simplified (program : Program) : Program where
  body := Simplify.body program.body
  routines := program.routines.map Routine.simplified

end Formula
end StoryPlayer
