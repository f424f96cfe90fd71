import StoryPlayer.Formula.Access
import StoryPlayer.Formula.Purity
import StoryPlayer.Formula.Token

/-!
# Rules that simplify formulas

What can be done to one part of a formula before it runs.  A rule gives none where it has nothing to
do.

- `Rule.connective?` drops truth values from a conjunction or a disjunction,
- `Rule.fallback?` drops units from a choice of the first value,
- `Rule.pieces?` joins neighbouring texts,
- `Rule.chain?`, `Rule.call?`, `Rule.binary?` compute what constants determine,
- `Rule.selection` decides a selection by a constant,
- `Rule.live`, `Rule.withoutPure`, `Rule.trimEnd?` shorten the statements of a block.

A part that is dropped does not run, so it cannot fail either.
-/

namespace StoryPlayer
namespace Formula
namespace Rule

/-! ## Operands -/

/-- The parts without those that are `b`, up to the first that is not. -/
def decisive (b : Bool) : List Expr → List Expr
  | [] => []
  | .constant (.bool c) :: rest => if c == b then decisive b rest else [.bool c]
  | e :: rest => e :: decisive b rest

/-- The last of the parts is the truth value. -/
def endsWith (b : Bool) (parts : List Expr) : Bool :=
  match parts.getLast? with
  | some (.constant (.bool c)) => c == b
  | _ => false

/-- A conjunction, for which `b` is true, or a disjunction, for which it is false.  Parts that are
`b` do not count, and nothing counts after one that is not. -/
def connective? (b : Bool) (parts : List Expr) : Option Expr :=
  match decisive b parts with
  | [] => some (.bool b)
  | [e] => some e
  | kept =>
    if endsWith (!b) kept && Expr.allPure kept then some (.bool !b)
    else if kept.length < parts.length then some (if b then .both kept else .either kept)
    else none

/-- The parts without units, up to the first that is another constant. -/
def present : List Expr → List Expr
  | [] => []
  | .constant .unit :: rest => present rest
  | e :: rest => if e.isConstant then [e] else e :: present rest

/-- A choice of the first value.  With no parts left it is false. -/
def fallback? (parts : List Expr) : Option Expr :=
  match present parts with
  | [] => some (.bool false)
  | [e] => some e
  | kept => if kept.length < parts.length then some (.orElse kept) else none

/-- Joins a piece to the pieces after it: texts that meet become one, and units and empty texts are
dropped beside other pieces. -/
def mergeAfter : Expr → List Expr → List Expr
  | e, [] => [e]
  | .constant (.text s), .constant (.text t) :: rest => mergeAfter (.text (s ++ t)) rest
  | e, .constant .unit :: rest => mergeAfter e rest
  | .constant .unit, f :: rest => mergeAfter f rest
  | e, .constant (.text "") :: rest => mergeAfter e rest
  | .constant (.text ""), f :: rest => mergeAfter f rest
  | e, f :: rest => e :: mergeAfter f rest

def pieces? (parts : List Expr) : Option (List Expr) :=
  match parts with
  | [] => none
  | e :: rest =>
    let merged := mergeAfter e rest
    if merged.length < parts.length then some merged else none

/-! ## Constants -/

/-- The datum of an expression that is put together from constants. -/
def known? (e : Expr) : Option Datum :=
  if e.isConstant then e.literal? else none

/-- The data of expressions all of which are put together from constants. -/
def allKnown? (es : List Expr) : Option (List Datum) :=
  if Expr.allConstant es then Expr.literals? es else none

def entry (entries : List (String × Expr)) (name : String) : Expr :=
  (entries.lookup name).getD .unit

def chain? (root : Expr) (links : List Link) : Option Expr :=
  match root, links with
  | .map entries, [.property s] =>
    if Expr.allPureEntries entries then some (entry entries s) else none
  | .map entries, [.index (.constant (.text s))] =>
    if Expr.allPureEntries entries then some (entry entries s) else none
  | .list items, [.index (.constant (.int position))] =>
    if Expr.allPure items then (Library.place? items.length position).bind (items[·]?) else none
  | .constant (.text s), [.index (.constant (.int position))] =>
    ((Library.place? s.length position).bind (s.toList[·]?)).map fun c => .constant (.char c)
  | .constant (.int n), [.index (.constant (.int position))] =>
    if 0 ≤ position && position < Datum.bitCount then some (.bool (Datum.bit n position.toNat))
    else none
  | root, [.method "type_of" []] => (known? root).map fun d => .text d.typeName
  | root, [.method "is_shared" []] => (known? root).map fun _ => .bool false
  | _, _ => none

/-- The functions whose calls with constants are left as they are. -/
def quiet : List String :=
  ["print", "debug", "Fn", "curry", "is_def_var", "is_def_fn"]

def call? (function : String) (arguments : List Expr) : Option Expr :=
  match function, arguments with
  | "Fn", [.constant (.text s)] =>
    if Token.namesFunction s then some (.constant (.function s [])) else none
  | "curry", .constant (.function name curried) :: e :: rest =>
    (allKnown? (e :: rest)).map fun data => .constant (.function name (curried ++ data))
  | "type_of", [e] => (known? e).map fun d => .text d.typeName
  | "is_shared", [e] => (known? e).map fun _ => .bool false
  | _, _ => none

/-- An operation on constants, if the language itself has it and it does not fail. -/
def binary? (op : Binary) (a b : Expr) : Option Expr :=
  match known? a, known? b with
  | some x, some y =>
    match Operator.builtin? op x y with
    | some (.ok d) => some (.constant d)
    | _ => none
  | _, _ => none

def unary? (op : Unary) (e : Expr) : Option Expr :=
  match op, e with
  | .not, .constant (.bool b) => some (.bool !b)
  | _, _ => none

def moved? (e : Expr) : Option Expr :=
  match e with
  | .constant _ => none
  | e => e.literal?.map .constant

def isAssignable : Binary → Bool
  | .add => true
  | .sub => true
  | .mul => true
  | .div => true
  | .rem => true
  | .pow => true
  | .shiftLeft => true
  | .shiftRight => true
  | .bitAnd => true
  | .bitOr => true
  | .bitXor => true
  | _ => false

def update? (target : Expr) (op : Option Binary) (e : Expr) : Option Stmt :=
  match target, op, e with
  | .name s declared, none, .binary op (.name t _) b =>
    if s == t && isAssignable op then some (.assign (.name s declared) (some op) b) else none
  | _, _, _ => none

/-! ## Selections -/

inductive Selection
  /-- The body of one case. -/
  | taken (body : Expr)
  /-- The body of one case if its condition holds. -/
  | tested (condition body : Expr)
  /-- Cases whose conditions must be tried in order. -/
  | narrowed (cases : List Case)
  /-- No case. -/
  | missed

def isUnconditional : Case → Bool
  | .mk _ (.constant (.bool true)) _ => true
  | _ => false

def isImpossible : Case → Bool
  | .mk _ (.constant (.bool false)) _ => true
  | _ => false

def ofCase : Case → Selection
  | .mk _ (.constant (.bool true)) body => .taken body
  | .mk _ condition body => .tested condition body

def keysOf : Case → List CaseKey
  | .mk keys _ _ => keys

def spansOf : Case → List Case
  | .mk keys condition body =>
    keys.filterMap fun
      | .span low high inclusive => some (.mk [.span low high inclusive] condition body)
      | .value _ => none

def selectionBySpan (d : Datum) (spans : List Case) : Selection :=
  let found := spans.filter fun case => (keysOf case).any (CaseKey.isSpanOf d)
  if spans.length ≤ 1 || spans.all isUnconditional then
    match found with
    | case :: _ => ofCase case
    | [] => .missed
  else .narrowed found

/-- A selection by a constant.  A single case with the constant as a key is taken; of several the
first without a condition; otherwise the spans decide. -/
def selection (d : Datum) (cases : List Case) : Selection :=
  match cases.filter fun case => (keysOf case).any (CaseKey.isDatum d) with
  | [case] => ofCase case
  | several =>
    match several.find? isUnconditional with
    | some case => ofCase case
    | none => selectionBySpan d (cases.flatMap spansOf)

/-! ## Blocks -/

inductive Purpose
  /-- It is the whole formula or a function. -/
  | whole
  /-- Its value is used. -/
  | value
  /-- Only its effect counts. -/
  | effect
  deriving DecidableEq

def Purpose.keepsValue (purpose : Purpose) : Bool :=
  purpose != .effect

/-- The statement does nothing that is left after the block. -/
def Purpose.isPure (purpose : Purpose) (s : Stmt) : Bool :=
  if purpose = .whole then s.isPure else s.isInternallyPure

/-- The statements up to the first that nothing comes after. -/
def live : List Stmt → List Stmt
  | [] => []
  | s :: rest => if s.isBreak then [s] else s :: live rest

/-- The statement is not pure or may depend on what is declared before it. -/
def isAnchor (purpose : Purpose) (s : Stmt) : Bool :=
  !purpose.isPure s ||
    match s with
    | .declare _ _ e => e.isConstant
    | .expr e => !e.isConstant
    | .load e => !e.isConstant
    | _ => false

/-- The position of the last anchor, or the start. -/
def lastAnchor (purpose : Purpose) : Nat → List Stmt → Nat
  | _, [] => 0
  | index, s :: rest =>
    let later := lastAnchor purpose (index + 1) rest
    if later = 0 && isAnchor purpose s then index else later

/-- Drops pure statements: all of them from the last anchor on, and before it those that declare
nothing.  The last statement stays if its value is used. -/
def dropPure (purpose : Purpose) (anchor : Nat) : Nat → List Stmt → List Stmt
  | _, [] => []
  | index, s :: rest =>
    let kept := dropPure purpose anchor (index + 1) rest
    if purpose.keepsValue && rest.isEmpty then [s]
    else if (purpose.isPure s && anchor ≤ index) || s.isPure then kept
    else s :: kept

def withoutPure (purpose : Purpose) (body : List Stmt) : List Stmt :=
  dropPure purpose (lastAnchor purpose 0 body) 0 body

/-- Shortens the end of a block by one step, given from its last statement on. -/
def trim? (purpose : Purpose) : List Stmt → Option (List Stmt)
  | [] => none
  | [.finish none] => if purpose = .whole then some [] else none
  | .finish none :: before :: rest =>
    if purpose = .whole then
      some (if before.yields then .noop :: before :: rest else before :: rest)
    else none
  | .finish (some e) :: rest => if purpose = .whole then some (.expr e :: rest) else none
  | [s] => if !s.yields && purpose.isPure s then some [] else none
  | .noop :: before :: rest => if before.yields then none else some (before :: rest)
  | s :: before :: rest =>
    if !s.yields && purpose.isPure s then
      some (if before.yields then .noop :: before :: rest else before :: rest)
    else none

/-- Shortens the end of a block by at most a number of steps. -/
def trimmed (purpose : Purpose) : Nat → List Stmt → List Stmt
  | 0, body => body
  | limit + 1, body =>
    match trim? purpose body with
    | some body => trimmed purpose limit body
    | none => body

/-- A block without the statements at its end that do nothing. -/
def trimEnd? (purpose : Purpose) (body : List Stmt) : Option (List Stmt) :=
  if purpose.keepsValue then
    match trim? purpose body.reverse with
    | some rest => some (trimmed purpose body.length rest).reverse
    | none => none
  else
    let rest := body.reverse.dropWhile purpose.isPure
    if rest.length < body.length then some rest.reverse else none

end Rule
end Formula
end StoryPlayer
