import StoryPlayer.Formula.Tree

/-!
# Constant and pure parts of formulas

What can be said of the parts of a formula without running it.

- `Expr.isConstant` and `Expr.literal?` find parts that are constants,
- `Expr.isPure` and `Stmt.isPure` find parts that do nothing but yield a value,
- `Stmt.isInternallyPure` is the same inside a block, where declarations are forgotten at the end,
- `Stmt.yields` says which statements have a value of their own.
-/

namespace StoryPlayer
namespace Formula

/-! ## Constants -/

namespace Expr

mutual

/-- The expression is a constant or is put together from constants. -/
def isConstant : Expr → Bool
  | .constant _ => true
  | .pieces parts => allConstant parts
  | .list items => allConstant items
  | .map entries => allConstantEntries entries
  | _ => false

def allConstant : List Expr → Bool
  | [] => true
  | e :: rest => isConstant e && allConstant rest

def allConstantEntries : List (String × Expr) → Bool
  | [] => true
  | (_, e) :: rest => isConstant e && allConstantEntries rest

end

def functionValue? (function : String) (arguments : List Expr) : Option Datum :=
  match function, arguments with
  | "Fn", [.constant (.text s)] => some (.function s [])
  | _, _ => none

mutual

/-- The datum that an expression stands for without being computed. -/
def literal? : Expr → Option Datum
  | .constant d => some d
  | .pieces parts =>
    (literals? parts).map fun data => .text (String.join (data.map Datum.constantText))
  | .list items => (literals? items).map .ofList
  | .map entries => (literalEntries? entries).map fun entries => .map (Dict.ofList entries)
  | .binary .range (.constant (.int low)) (.constant (.int high)) => some (.range low high false)
  | .binary .rangeInclusive (.constant (.int low)) (.constant (.int high)) =>
    some (.range low high true)
  | .call function arguments => functionValue? function arguments
  | _ => none

def literals? : List Expr → Option (List Datum)
  | [] => some []
  | e :: rest =>
    match literal? e, literals? rest with
    | some d, some data => some (d :: data)
    | _, _ => none

def literalEntries? : List (String × Expr) → Option (List (String × Datum))
  | [] => some []
  | (key, e) :: rest =>
    match literal? e, literalEntries? rest with
    | some d, some entries => some ((key, d) :: entries)
    | _, _ => none

end

end Expr

/-! ## Purity -/

mutual

def Expr.isPure : Expr → Bool
  | .constant _ => true
  | .pieces parts => Expr.allPure parts
  | .list items => Expr.allPure items
  | .map entries => Expr.allPureEntries entries
  | .name .. => true
  | .member .. => true
  | .both parts => Expr.allPure parts
  | .either parts => Expr.allPure parts
  | .orElse parts => Expr.allPure parts
  | .block body => Stmt.allPure body
  | _ => false

def Expr.allPure : List Expr → Bool
  | [] => true
  | e :: rest => Expr.isPure e && Expr.allPure rest

def Expr.allPureEntries : List (String × Expr) → Bool
  | [] => true
  | (_, e) :: rest => Expr.isPure e && Expr.allPureEntries rest

/-- The statement does nothing but yield a value.  A loop is pure only if it ends. -/
def Stmt.isPure : Stmt → Bool
  | .noop => true
  | .expr e => Expr.isPure e
  | .branch condition yes no =>
    Expr.isPure condition && Stmt.allPure yes && Stmt.allPure no
  | .select subject cases (some otherwise) =>
    Expr.isPure subject && Stmt.allPureCases cases && Expr.isPure otherwise
  | .repeatWhile (.constant (.bool false)) _ => true
  | .repeatAfter body (.constant (.bool b)) goOn => b != goOn && Stmt.allPure body
  | .forEach _ _ source body => Expr.isPure source && Stmt.allPure body
  | .block body => Stmt.allPure body
  | .attempt body _ handler => Stmt.allPure body && Stmt.allPure handler
  | _ => false

def Stmt.allPure : List Stmt → Bool
  | [] => true
  | s :: rest => Stmt.isPure s && Stmt.allPure rest

def Stmt.allPureCases : List Case → Bool
  | [] => true
  | .mk _ condition body :: rest =>
    Expr.isPure condition && Expr.isPure body && Stmt.allPureCases rest

end

namespace Stmt

mutual

/-- The statement does nothing that is left after the block around it. -/
def isInternallyPure : Stmt → Bool
  | .declare _ _ e => e.isPure
  | .expr (.block body) => allInternallyPure body
  | .load _ => true
  | s => s.isPure

def allInternallyPure : List Stmt → Bool
  | [] => true
  | s :: rest => isInternallyPure s && allInternallyPure rest

end

/-! ## Places of statements -/

def yields : Stmt → Bool
  | .branch .. => true
  | .select .. => true
  | .block _ => true
  | .expr _ => true
  | .perform _ => true
  | _ => false

def isBlockDependent : Stmt → Bool
  | .declare .. => true
  | .load _ => true
  | .perform (.moduleCall ..) => true
  | _ => false

def isBreak : Stmt → Bool
  | .leave _ => true
  | .again => true
  | .finish _ => true
  | .throw _ => true
  | _ => false

end Stmt
end Formula
end StoryPlayer
