import StoryPlayer.Formula.Purity
import StoryPlayer.Formula.Token

/-!
# Reading formulas

From tokens to trees.  Names are resolved while reading: a name that is neither declared in the
formula nor bound outside of it is a fault even in code that never runs.  A function sees only its
parameters; a closure shares the variables around it.  Every part knows how deep it stands, because
the depth of a formula is limited.

- `ReadFault` says why a text is no formula,
- `Reading` is the state of a reader and `Read` its monad,
- `readProgram` reads the text of a formula.
-/

namespace StoryPlayer
namespace Formula

inductive ReadFault
  | undefined (name : String)
  | malformed
  deriving DecidableEq, Repr

structure Local where
  name : String
  constant : Bool

inductive ScopeKind
  /-- The formula itself: names bound outside of it as well. -/
  | top
  /-- A function: nothing but its own names. -/
  | routine
  /-- A closure: the names around it as well. -/
  | closure
  deriving DecidableEq

/-- The names declared so far in the formula, a function or a closure. -/
structure NameScope where
  kind : ScopeKind
  locals : List Local
  /-- The names that a closure takes from outside, in the order of their first use. -/
  shared : List String

structure Reading where
  tokens : List Token
  scopes : List NameScope
  known : List String
  routines : List Routine

abbrev Read := StateT Reading (Except ReadFault)

structure Place where
  /-- The number of parts around it. -/
  level : Nat := 0
  /-- Not inside a block. -/
  outermost : Bool := false
  /-- Inside a loop. -/
  inLoop : Bool := false
  /-- Inside a function or a closure. -/
  inRoutine : Bool := false
  /-- Inside the keys of a case, which a bar separates. -/
  inKeys : Bool := false

namespace Read

def maxLevel : Nat := 128

def malformed {α : Type} : Read α :=
  throw .malformed

def deeper (p : Place) : Read Place :=
  if p.level < maxLevel then return { p with level := p.level + 1 } else malformed

/-- Reads a part in which every fault, of a name as well, is one of the form. -/
def formOnly {α : Type} (x : Read α) : Read α := fun r =>
  match x r with
  | .ok result => .ok result
  | .error _ => .error .malformed

/-! ## Tokens -/

def peek : Read (Option Token) :=
  return (← get).tokens.head?

def skip : Read Unit :=
  modify fun r => { r with tokens := r.tokens.drop 1 }

def atMark (s : String) : Read Bool := do
  match ← peek with
  | some (.mark m) => return m == s
  | _ => return false

def atWord (s : String) : Read Bool := do
  match ← peek with
  | some (.word w) => return w == s
  | _ => return false

def tryMark (s : String) : Read Bool := do
  if ← atMark s then
    skip
    return true
  else return false

def tryWord (s : String) : Read Bool := do
  if ← atWord s then
    skip
    return true
  else return false

def mark (s : String) : Read Unit := do
  unless ← tryMark s do malformed

def word (s : String) : Read Unit := do
  unless ← tryWord s do malformed

def name : Read String := do
  match ← peek with
  | some (.name s) =>
    skip
    return s
  | _ => malformed

/-! ## Names -/

def isRoutine (r : Reading) (s : String) : Bool :=
  r.routines.any fun routine => routine.name == s

def useIn (r : Reading) (s : String) : List NameScope → Except ReadFault (List NameScope)
  | [] => .error (.undefined s)
  | scope :: outer =>
    if scope.locals.any fun l => l.name == s then .ok (scope :: outer)
    else if isRoutine r s then .ok (scope :: outer)
    else
      -- The name comes from outside of this scope.
      match scope.kind with
      | .closure =>
        if scope.shared.contains s then .ok (scope :: outer)
        else .ok ({ scope with shared := scope.shared ++ [s] } :: outer)
      | .top =>
        if r.known.contains s then .ok (scope :: outer) else .error (.undefined s)
      | .routine => .error (.undefined s)

def isDeclared (s : String) : List NameScope → Bool
  | [] => false
  | scope :: _ => scope.locals.any fun l => l.name == s

def use (s : String) : Read Expr := do
  let r ← get
  let scopes ← liftM (useIn r s r.scopes)
  set { r with scopes }
  return .name s (isDeclared s scopes)

def inScope (f : NameScope → NameScope) : Read Unit :=
  modify fun r =>
    match r.scopes with
    | [] => r
    | scope :: outer => { r with scopes := f scope :: outer }

def declare (s : String) (constant : Bool) : Read Unit :=
  inScope fun scope => { scope with locals := ⟨s, constant⟩ :: scope.locals }

def locals : Read (List Local) := do
  match (← get).scopes with
  | [] => return []
  | scope :: _ => return scope.locals

def restore (locals : List Local) : Read Unit :=
  inScope fun scope => { scope with locals }

def isConstant (s : String) : Read Bool := do
  return ((← locals).find? fun l => l.name == s).any Local.constant

def enter (kind : ScopeKind) (params : List String) : Read Unit :=
  modify fun r =>
    { r with scopes := ⟨kind, params.reverse.map fun s => ⟨s, false⟩, []⟩ :: r.scopes }

/-- Leaves a function or a closure; returns the names taken from outside. -/
def exit : Read (List String) := do
  let r ← get
  match r.scopes with
  | [] => return []
  | scope :: outer =>
    set { r with scopes := outer }
    return scope.shared

/-! ## Checks on finished parts -/

/-- A constant that is no truth value, or a list or map, cannot be a condition. -/
def condition (e : Expr) : Read Expr :=
  match e with
  | .constant (.bool _) => return e
  | .constant _ => malformed
  | .pieces _ => malformed
  | .list _ => malformed
  | .map _ => malformed
  | _ => return e

/-- A constant that has no items cannot be walked through. -/
def iterable (e : Expr) : Read Expr :=
  match e with
  | .constant (.text _) => return e
  | .constant (.function ..) => return e
  | .constant _ => malformed
  | .map _ => malformed
  | _ => return e

/-- A constant index that a constant cannot have: lists, texts and whole numbers have numbered
parts, maps have named ones, and other constants have none. -/
def indexable (root index : Expr) : Read Unit :=
  match root, index with
  | .map _, .constant (.text _) => return
  | .map _, .constant _ => malformed
  | .list _, .constant (.int _) => return
  | .list _, .constant _ => malformed
  | .pieces _, .constant (.int _) => return
  | .pieces _, .constant _ => malformed
  | .constant (.text _), .constant (.int _) => return
  | .constant (.text _), .constant _ => malformed
  | .constant (.int _), .constant (.int _) => return
  | .constant (.int _), .constant _ => malformed
  | .constant (.function ..), _ => return
  | .constant (.text _), .pieces _ => malformed
  | .constant (.int _), .pieces _ => malformed
  | .list _, .pieces _ => malformed
  | .pieces _, .pieces _ => malformed
  | .constant (.text _), _ => return
  | .constant (.int _), _ => return
  | .constant _, _ => malformed
  | _, _ => return

/-- A block cannot stand where a condition is needed. -/
def noBlock : Read Unit := do
  match ← peek with
  | none => malformed
  | some (.mark m) => if m == "\x7b" then malformed else return
  | _ => return

def noAssignment : Read Unit := do
  if ← atMark "=" then malformed

def assignable : Link → Bool
  | .method .. => false
  | _ => true

def target (e : Expr) : Read Unit := do
  match e with
  | .self => return
  | .name s _ => if ← isConstant s then malformed
  | .member .. => return
  | .chain (.name ..) links => unless links.all assignable do malformed
  | .chain .self links => unless links.all assignable do malformed
  | .chain (.member ..) links => unless links.all assignable do malformed
  | _ => malformed

/-- The keys that a constant stands for; an empty span matches nothing. -/
def caseKeys (e : Expr) : Read (List CaseKey) :=
  match e.literal? with
  | some (.range low high inclusive) =>
    if (if inclusive then low ≤ high else low < high) then return [.span low high inclusive]
    else return []
  | some d => return [.value d]
  | none => malformed

def isSpan : CaseKey → Bool
  | .span .. => true
  | .value _ => false

def isWhole : CaseKey → Bool
  | .value (.int _) => true
  | _ => false

def inOrder : Bool → List CaseKey → Bool
  | _, [] => true
  | spanned, key :: rest => !(spanned && isWhole key) && inOrder (spanned || isSpan key) rest

def endsInBrace : Stmt → Bool
  | .block _ => true
  | .branch .. => true
  | .select .. => true
  | .forever _ => true
  | .repeatWhile .. => true
  | .forEach .. => true
  | .attempt .. => true
  | _ => false

def selfTerminated : Stmt → Bool
  | .expr (.block [s]) => endsInBrace s
  | .expr (.block _) => true
  | s => endsInBrace s

def bodyOf : Option Stmt → List Stmt
  | some (.block body) => body
  | some s => [s]
  | none => []

/-! ## Operators -/

def precedence : Option Token → Nat
  | some (.mark m) =>
    if m == "||" || m == "|" || m == "^" then 30
    else if m == "&&" || m == "&" then 60
    else if m == "==" || m == "!=" then 90
    else if m == "!in" then 110
    else if m == "<" || m == "<=" || m == ">" || m == ">=" then 130
    else if m == "??" then 135
    else if m == ".." || m == "..=" then 140
    else if m == "+" || m == "-" then 150
    else if m == "*" || m == "/" || m == "%" then 180
    else if m == "**" then 190
    else if m == "<<" || m == ">>" then 210
    else 0
  | some (.word w) => if w == "in" then 110 else 0
  | _ => 0

def groupsRight (precedence : Nat) : Bool :=
  precedence == 190

def binary? (m : String) : Option Binary :=
  ([("+", .add), ("-", .sub), ("*", .mul), ("/", .div), ("%", .rem), ("**", .pow),
    ("<<", .shiftLeft), (">>", .shiftRight), ("&", .bitAnd), ("|", .bitOr), ("^", .bitXor),
    ("==", .eq), ("!=", .ne), ("<", .lt), ("<=", .le), (">", .gt), (">=", .ge), ("..", .range),
    ("..=", .rangeInclusive)] : List (String × Binary)).lookup m

def assignment? (m : String) : Option Binary :=
  ([("+=", .add), ("-=", .sub), ("*=", .mul), ("/=", .div), ("%=", .rem), ("**=", .pow),
    ("<<=", .shiftLeft), (">>=", .shiftRight), ("&=", .bitAnd), ("|=", .bitOr),
    ("^=", .bitXor)] : List (String × Binary)).lookup m

def conjuncts : Expr → List Expr
  | .both parts => parts
  | e => [e]

def disjuncts : Expr → List Expr
  | .either parts => parts
  | e => [e]

def fallbacks : Expr → List Expr
  | .orElse parts => parts
  | e => [e]

def join (op : Token) (a b : Expr) : Read Expr :=
  match op with
  | .word _ => return .contains b a
  | .mark m =>
    if m == "!in" then return .unary .not (.contains b a)
    else if m == "||" then do
      let b ← condition b
      let a ← condition a
      return .either (disjuncts a ++ disjuncts b)
    else if m == "&&" then do
      let b ← condition b
      let a ← condition a
      return .both (conjuncts a ++ conjuncts b)
    else if m == "??" then return .orElse (fallbacks a ++ fallbacks b)
    else
      match binary? m with
      | some op => return .binary op a b
      | none => malformed
  | _ => malformed

/-- Applies a sign; the sign of a constant is part of the constant. -/
def sign (op : Unary) (e : Expr) : Expr :=
  match op, e with
  | .minus, .constant (.int n) =>
    -- The least whole number has no positive counterpart.
    if n < -(Token.maxInt : Int) then .constant (.float (-Float.ofInt n))
    else .constant (.int (-n))
  | .minus, .constant (.float x) => .constant (.float (-x))
  | .plus, .constant (.int n) => .constant (.int n)
  | .plus, .constant (.float x) => .constant (.float x)
  | op, e => .unary op e

def modules : List String := ["Math"]

/-- A path into modules must start with a module of the language. -/
def checkModule (path : List String) : Read Unit :=
  match path with
  | [] => return
  | first :: _ => unless modules.contains first do malformed

def closureName (r : Reading) : String :=
  Routine.closureMark ++ String.ofList (Nat.toDigits 10 r.routines.length)

def addRoutine (routine : Routine) : Read Unit :=
  modify fun r => { r with routines := r.routines ++ [routine] }

/-- Adds a piece of text unless it is empty. -/
def addPiece (parts : List Expr) (s : String) : List Expr :=
  if s.isEmpty then parts else parts ++ [.text s]

def params (closing : String) : Nat → List String → Read (List String)
  | 0, _ => malformed
  | fuel + 1, acc => do
    if ← tryMark closing then return acc
    let s ← name
    if acc.contains s then malformed
    if ← tryMark closing then return acc ++ [s]
    mark ","
    params closing fuel (acc ++ [s])

/-- The value of a closure.  Variables that it shares are moved to cells first, and the cells become
its first arguments. -/
def closureExpr (routine : String) (names : List String) (shared : List Expr) : Expr :=
  if shared.isEmpty then .constant (.function routine [])
  else
    .block [.share names, .expr (.call "curry" (.constant (.function routine []) :: shared))]

def allIndices : List Link → Bool
  | [] => true
  | .index _ :: rest => allIndices rest
  | _ :: _ => false

/-- The way that continues an operand by names: a way that consists of indices goes on, everything
else is where a new way starts. -/
def continueBy (root : Expr) (links : List Link) : Expr :=
  match root with
  | .chain start before =>
    if allIndices before then .chain start (before ++ links) else .chain root links
  | root => .chain root links

/-! ## Expressions and statements -/

mutual

def expr : Nat → Place → Read Expr
  | 0, _ => malformed
  | fuel + 1, p => do
    let p ← deeper p
    let first ← unary fuel p
    operators fuel p 1 first

/-- Reads the operators of at least the given precedence that follow the first operand.  Every
operator stands one level deeper than the one before. -/
def operators : Nat → Place → Nat → Expr → Read Expr
  | 0, _, _, _ => malformed
  | fuel + 1, p, least, first => do
    let token ← peek
    let here := precedence token
    match token with
    | none => return first
    | some .invalid => malformed
    | some token =>
      if p.inKeys && (match token with | .mark m => m == "|" | _ => false) then return first
      else if here < least || (here == least && !groupsRight here) then return first
      else
        skip
        let second ← unary fuel p
        -- An operator that binds more tightly gets the second operand first.
        let next := precedence (← peek)
        let second ←
          if (here == next && groupsRight here) || here < next then operators fuel p here second
          else pure second
        let p ← deeper p
        let joined ← join token first second
        operators fuel p least joined

def unary : Nat → Place → Read Expr
  | 0, _ => malformed
  | fuel + 1, p => do
    match ← peek with
    | some (.mark "-") =>
      skip
      return sign .minus (← unary fuel (← deeper p))
    | some (.mark "+") =>
      skip
      return sign .plus (← unary fuel (← deeper p))
    | some (.mark "!") =>
      skip
      return .unary .not (← unary fuel (← deeper p))
    | _ => primary fuel p

def primary : Nat → Place → Read Expr
  | 0, _ => malformed
  | fuel + 1, p => do
    let constant (d : Datum) : Read Expr := do
      skip
      links fuel p (.constant d)
    match ← peek with
    | none => malformed
    | some (.int n) => constant (.int n)
    | some (.float x) => constant (.float x)
    | some (.char c) => constant (.char c)
    | some (.text s) => constant (.text s)
    | some (.piece s) =>
      skip
      let parts ← inserted fuel (← deeper p) (addPiece [] s)
      links fuel p (if parts.isEmpty then .text "" else .pieces parts)
    | some (.name s) =>
      skip
      named fuel p [] s
    | some (.reserved s) =>
      skip
      -- Of the reserved words some can be called; as an operand there is only `this`.
      if (← atMark "(") || (← atMark "()") then
        if Token.functionWords.contains s then called fuel p [] s else malformed
      else if s == "this" && p.inRoutine then links fuel p .self
      else malformed
    | some (.word w) =>
      if w == "true" then constant (.bool true)
      else if w == "false" then constant (.bool false)
      else if ["if", "switch", "while", "loop", "do", "for"].contains w then
        match ← compound fuel w (← deeper { p with outermost := false, inKeys := false }) with
        | some s => links fuel p (.block [s])
        | none => malformed
      else malformed
    | some (.mark m) =>
      if m == "()" then constant .unit
      else if m == "(" then
        skip
        let e ← expr fuel { (← deeper p) with inKeys := false }
        mark ")"
        links fuel p e
      else if m == "[" then
        skip
        let items ← listed fuel (← deeper (← deeper p)) "]"
        links fuel p (.list items)
      else if m == "#\x7b" then
        skip
        let entries ← mapped fuel (← deeper (← deeper p)) []
        links fuel p (.map entries)
      else if m == "\x7b" then
        let body ← block fuel (← deeper p)
        links fuel p (.block body)
      else if m == "|" || m == "||" then
        let e ← closure fuel (← deeper (← deeper p))
        links fuel p e
      else malformed
    | some _ => malformed

/-- Reads what follows a name: a call, a path into modules, or nothing. -/
def named : Nat → Place → List String → String → Read Expr
  | 0, _, _, _ => malformed
  | fuel + 1, p, path, s => do
    if (← atMark "(") || (← atMark "()") then called fuel p path s
    else if ← tryMark "::" then
      let inner ← name
      named fuel p (path ++ [s]) inner
    else if (← atMark "!") && path.isEmpty then
      malformed
    else if path.isEmpty then
      let e ← use s
      links fuel p e
    else
      let e ← links fuel p (.member path s)
      checkModule path
      return e

def called : Nat → Place → List String → String → Read Expr
  | 0, _, _, _ => malformed
  | fuel + 1, p, path, s => do
    let arguments ← arguments fuel p
    checkModule path
    links fuel p (if path.isEmpty then .call s arguments else .moduleCall path s arguments)

def arguments : Nat → Place → Read (List Expr)
  | 0, _ => malformed
  | fuel + 1, p => do
    if ← tryMark "()" then return []
    mark "("
    if ← tryMark ")" then return []
    listed fuel (← deeper p) ")"

/-- Reads expressions up to the closing mark; a comma may follow the last. -/
def listed : Nat → Place → String → Read (List Expr)
  | 0, _, _ => malformed
  | fuel + 1, p, closing => do
    if ← tryMark closing then return []
    let e ← expr fuel { p with inKeys := false }
    if ← tryMark closing then return [e]
    mark ","
    return e :: (← listed fuel p closing)

/-- Reads the entries of a map; no name may be repeated. -/
def mapped : Nat → Place → List (String × Expr) → Read (List (String × Expr))
  | 0, _, _ => malformed
  | fuel + 1, p, acc => do
    if ← tryMark "\x7d" then return acc
    let s ← match ← peek with
      | some (.name s) => pure s
      | some (.text s) => pure s
      | _ => malformed
    skip
    if acc.any fun entry => entry.1 == s then malformed
    mark ":"
    let e ← expr fuel { p with inKeys := false }
    let acc := acc ++ [(s, e)]
    if ← tryMark "\x7d" then return acc
    mark ","
    mapped fuel p acc

def inserted : Nat → Place → List Expr → Read (List Expr)
  | 0, _, _ => malformed
  | fuel + 1, p, parts => do
    let body ← block fuel { p with inKeys := false }
    let parts := parts ++ [.block body]
    match ← peek with
    | some (.lastPiece s) =>
      skip
      return addPiece parts s
    | some (.piece s) =>
      skip
      inserted fuel p (addPiece parts s)
    | _ => malformed

def links : Nat → Place → Expr → Read Expr
  | 0, _, _ => malformed
  | fuel + 1, p, root => do
    if ← atMark "[" then
      let found ← indices fuel (← deeper (← deeper p)) (some root)
      links fuel p (.chain root found)
    else if ← atMark "." then
      let found ← properties fuel p
      return continueBy root found
    else return root

/-- Reads indices that follow each other.  The first one must suit what it is an index of. -/
def indices : Nat → Place → Option Expr → Read (List Link)
  | 0, _, _ => malformed
  | fuel + 1, p, root => do
    mark "["
    let index ← expr fuel { p with inKeys := false }
    if let some root := root then indexable root index
    mark "]"
    if ← atMark "[" then return .index index :: (← indices fuel (← deeper p) none)
    else return [.index index]

def properties : Nat → Place → Read (List Link)
  | 0, _ => malformed
  | fuel + 1, p => do
    mark "."
    let p ← deeper p
    let link ← match ← peek with
      | some (.name s) =>
        skip
        if (← atMark "(") || (← atMark "()") then pure (Link.method s (← arguments fuel p))
        else if ← atMark "::" then malformed
        else pure (Link.property s)
      | some (.reserved s) =>
        skip
        if Token.methodWords.contains s && ((← atMark "(") || (← atMark "()")) then
          pure (Link.method s (← arguments fuel p))
        else malformed
      | _ => malformed
    let found ← if ← atMark "[" then indices fuel (← deeper (← deeper p)) none else pure []
    if ← atMark "." then return link :: found ++ (← properties fuel p)
    else return link :: found

def closure : Nat → Place → Read Expr
  | 0, _ => malformed
  | fuel + 1, p => do
    let params ←
      if ← tryMark "||" then pure []
      else
        mark "|"
        params "|" fuel []
    enter .closure params
    let body ← statement fuel { level := p.level, inRoutine := true }
    let names ← exit
    -- What a closure takes from outside is also used by what is around it.
    let shared ← names.mapM use
    let s := closureName (← get)
    addRoutine ⟨s, names ++ params, bodyOf body⟩
    return closureExpr s names shared

def statement : Nat → Place → Read (Option Stmt)
  | 0, _ => malformed
  | fuel + 1, p => do
    match ← peek with
    | none => return none
    | some (.mark ";") =>
      skip
      return none
    | some (.mark "\x7b") => return some (.block (← block fuel (← deeper p)))
    | some (.word w) =>
      if w == "fn" || w == "private" then
        if p.outermost then
          routine fuel
          return none
        else malformed
      else
        match ← compound fuel w (← deeper p) with
        | some s => return some s
        | none => some <$> simple fuel w p
    | some _ => some <$> assignment fuel (← deeper p)

/-- Reads a statement with blocks; none if the word starts no such statement. -/
def compound : Nat → String → Place → Read (Option Stmt)
  | 0, _, _ => malformed
  | fuel + 1, w, p => do
    if w == "if" then some <$> branch fuel p
    else if w == "switch" then
      skip
      let p ← deeper p
      let subject ← expr fuel p
      mark "\x7b"
      let (cases, otherwise) ← selection fuel p [] none
      return some (.select subject cases otherwise)
    else if w == "while" then
      skip
      let p ← deeper p
      noBlock
      let guard ← condition (← expr fuel p)
      noAssignment
      let body ← block fuel { p with inLoop := true }
      return some (.repeatWhile guard body)
    else if w == "loop" then
      skip
      let body ← block fuel { (← deeper p) with inLoop := true }
      return some (.forever body)
    else if w == "do" then
      skip
      let p ← deeper p
      let body ← block fuel { p with inLoop := true }
      let goOn ←
        if ← tryWord "while" then pure true
        else
          word "until"
          pure false
      noBlock
      let guard ← condition (← expr fuel p)
      noAssignment
      return some (.repeatAfter body guard goOn)
    else if w == "for" then
      skip
      some <$> forEach fuel (← deeper p)
    else if w == "try" then
      skip
      some <$> attempt fuel (← deeper p)
    else return none

def simple : Nat → String → Place → Read Stmt
  | 0, _, _ => malformed
  | fuel + 1, w, p => do
    if w == "continue" then
      skip
      if p.inLoop then return .again else malformed
    else if w == "break" then
      skip
      if p.inLoop then return .leave (← result fuel { p with outermost := false })
      else malformed
    else if w == "return" then
      skip
      return .finish (← result fuel p)
    else if w == "throw" then
      skip
      return .throw (← result fuel p)
    else if w == "let" || w == "const" then
      skip
      let p ← deeper (← deeper p)
      let s ← name
      let value ← if ← tryMark "=" then expr fuel p else pure .unit
      declare s (w == "const")
      return .declare (w == "const") s value
    else if w == "import" then
      skip
      let p ← deeper p
      let source ← expr fuel p
      if ← tryWord "as" then
        let _ ← name
      return .load source
    else assignment fuel (← deeper p)

def result : Nat → Place → Read (Option Expr)
  | 0, _ => malformed
  | fuel + 1, p => do
    match ← peek with
    | none => return none
    | some (.mark m) =>
      if (m == "\x7d" && !p.outermost) || m == ";" then return none
      else return some (← expr fuel (← deeper p))
    | some _ => return some (← expr fuel (← deeper p))

def assignment : Nat → Place → Read Stmt
  | 0, _ => malformed
  | fuel + 1, p => do
    let e ← expr fuel p
    match ← peek with
    | some (.mark m) =>
      if m == "=" then
        skip
        let value ← expr fuel p
        -- What is assigned to is looked at last.
        target e
        return .assign e none value
      else
        match assignment? m with
        | some op =>
          skip
          let value ← expr fuel p
          target e
          return .assign e (some op) value
        | none => return .expr e
    | _ => return .expr e

/-- Reads a block; what it declares is forgotten at its end. -/
def block : Nat → Place → Read (List Stmt)
  | 0, _ => malformed
  | fuel + 1, p => do
    mark "\x7b"
    let p ← deeper p
    let before ← locals
    let body ← statements fuel { p with outermost := false, inKeys := false }
    restore before
    return body

def statements : Nat → Place → Read (List Stmt)
  | 0, _ => malformed
  | fuel + 1, p => do
    if ← tryMark "\x7d" then return []
    match ← peek with
    | none => malformed
    | some _ =>
      match ← statement fuel p with
      | none => statements fuel p
      | some s =>
        if ← tryMark "\x7d" then return [s]
        else if ← tryMark ";" then return s :: (← statements fuel p)
        else if selfTerminated s then return s :: (← statements fuel p)
        else malformed

def branch : Nat → Place → Read Stmt
  | 0, _ => malformed
  | fuel + 1, p => do
    let p ← deeper p
    word "if"
    noBlock
    let guard ← condition (← expr fuel p)
    noAssignment
    let yes ← block fuel p
    if ← tryWord "else" then
      if ← atWord "if" then return .branch guard yes [← branch fuel p]
      else return .branch guard yes (← block fuel p)
    else return .branch guard yes []

def selection : Nat → Place → List Case → Option Expr → Read (List Case × Option Expr)
  | 0, _, _, _ => malformed
  | fuel + 1, p, cases, otherwise => do
    if ← tryMark "\x7d" then return (cases, otherwise)
    if otherwise.isSome then malformed
    let fallback ← tryMark "_"
    let (found, guard) ←
      if fallback then
        if ← atWord "if" then malformed else pure (([] : List CaseKey), Expr.bool true)
      else
        let found ← keys fuel p
        let guard ←
          if ← tryWord "if" then
            noBlock
            let guard ← condition (← expr fuel p)
            noAssignment
            pure guard
          else pure (.bool true)
        pure (found, guard)
    -- Behind a span there can be no whole numbers.
    unless inOrder (cases.any fun (.mk keys _ _) => keys.any isSpan) found do malformed
    mark "=>"
    let body ← statement fuel { p with outermost := false, inKeys := false }
    unless (← tryMark ",") || (← atMark "\x7d") || body.any selfTerminated do malformed
    let action := Expr.block (bodyOf body)
    if fallback then selection fuel p cases (some action)
    else selection fuel p (cases ++ [⟨found, guard, action⟩]) otherwise

def keys : Nat → Place → Read (List CaseKey)
  | 0, _ => malformed
  | fuel + 1, p => do
    let e ← formOnly (expr fuel { p with inKeys := true })
    let found ← caseKeys e
    if ← tryMark "|" then return found ++ (← keys fuel p) else return found

def forEach : Nat → Place → Read Stmt
  | 0, _ => malformed
  | fuel + 1, p => do
    let (s, counter) ←
      if ← tryMark "(" then
        let s ← name
        mark ","
        let counter ← name
        if counter == s then malformed
        mark ")"
        pure (s, some counter)
      else pure (← name, none)
    word "in"
    noBlock
    let source ← iterable (← expr fuel p)
    let before ← locals
    if let some counter := counter then declare counter false
    declare s false
    let body ← block fuel { p with inLoop := true }
    restore before
    return .forEach s counter source body

def attempt : Nat → Place → Read Stmt
  | 0, _ => malformed
  | fuel + 1, p => do
    let body ← block fuel p
    word "catch"
    let before ← locals
    let caught ←
      if ← tryMark "(" then
        let s ← name
        mark ")"
        declare s false
        pure (some s)
      else pure none
    let handler ← block fuel p
    restore before
    return .attempt body caught handler

/-- Reads a function.  Its body stands on levels of its own. -/
def routine : Nat → Read Unit
  | 0 => malformed
  | fuel + 1 => do
    let _ ← tryWord "private"
    word "fn"
    let s ← name
    let params ←
      if ← tryMark "()" then pure []
      else
        mark "("
        params ")" fuel []
    if (← get).routines.any fun r => r.name == s && r.params.length == params.length then malformed
    enter .routine params
    let body ← block fuel { level := 1, inRoutine := true }
    let _ ← exit
    addRoutine ⟨s, params, body⟩

def program : Nat → Read (List Stmt)
  | 0 => malformed
  | fuel + 1 => do
    match ← peek with
    | none => return []
    | some _ =>
      match ← statement fuel { outermost := true } with
      | none => program fuel
      | some s =>
        match ← peek with
        | none => return [s]
        | some _ =>
          if selfTerminated s then return s :: (← program fuel)
          else
            mark ";"
            return s :: (← program fuel)

end

end Read

def readProgram (known : List String) (source : String) : Except ReadFault Program :=
  let tokens := Token.scan source
  match (Read.program (16 * tokens.length + 16)).run ⟨tokens, [⟨.top, [], []⟩], known, []⟩ with
  | .ok (body, r) => .ok ⟨body, r.routines⟩
  | .error fault => .error fault

end Formula
end StoryPlayer
