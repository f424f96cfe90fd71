import StoryPlayer.Formula.Interpreter
import StoryPlayer.Proofs.Keeping

/-!
# Variables that outlast a formula

Whatever a formula declares, and wherever it is interrupted, the values that were bound for it before
are found in their places after it.

- `Eval.KeepsAt` says of all functions of the evaluation with a given depth that they keep the
  variables that are there, and `Eval.keepsAt` shows it by induction on the depth,
- `keepsNames_interpreter` concludes that the interpreter keeps the law on names.
-/

namespace StoryPlayer
namespace Formula
namespace Eval

/-! ## Evaluation -/

/-- All functions of the evaluation with a depth keep the variables that are there. -/
structure KeepsAt (fuel : Nat) (ctx : Context) : Prop where
  expr : ∀ e, Keeps (Eval.expr fuel ctx e)
  compute : ∀ e, Keeps (Eval.compute fuel ctx e)
  argument : ∀ e, Keeps (Eval.argument fuel ctx e)
  keptArgument : ∀ e, Keeps (Eval.keptArgument fuel ctx e)
  moduleArguments : ∀ arguments, Keeps (Eval.moduleArguments fuel ctx arguments)
  steps : ∀ links, Keeps (Eval.steps fuel ctx links)
  onRoot : ∀ root {x}, Keeps x → Keeps (Eval.onRoot fuel ctx root x)
  follow : ∀ way {x}, Keeps x → Keeps (Eval.follow fuel ctx way x)
  method : ∀ function arguments, Keeps (Eval.method fuel ctx function arguments)
  apply : ∀ function arguments onFocus, Keeps (Eval.apply fuel ctx function arguments onFocus)
  call : ∀ function arguments, Keeps (Eval.call fuel ctx function arguments)
  callNamed : ∀ function arguments, Keeps (Eval.callNamed fuel ctx function arguments)
  callFocused : ∀ function rest, Keeps (Eval.callFocused fuel ctx function rest)
  native : ∀ function rest, Keeps (Eval.native fuel ctx function rest)
  invoke : ∀ routine arguments onFocus, Keeps (Eval.invoke fuel ctx routine arguments onFocus)
  outside : ∀ function arguments, Keeps (Eval.outside fuel ctx function arguments)
  callItem : ∀ name curried item index, Keeps (Eval.callItem fuel ctx name curried item index)
  callPair : ∀ name curried a b, Keeps (Eval.callPair fuel ctx name curried a b)
  statement : ∀ s, Keeps (Eval.statement fuel ctx s)
  assignTo : ∀ target op d, Keeps (Eval.assignTo fuel ctx target op d)

namespace KeepsAt

variable {fuel : Nat} {ctx : Context}

/-- Without depth nothing is computed. -/
theorem zero (ctx : Context) : KeepsAt 0 ctx := by
  constructor <;> intros <;> exact Keeps.raise _

/-- A function has variables of its own, which are gone when it returns. -/
theorem invoke_succ (routine : Routine) (arguments : List Datum) (onFocus : Bool) :
    Keeps (Eval.invoke (fuel + 1) ctx routine arguments onFocus) := by
  rw [Eval.invoke]
  refine keeps_tick.bind fun _ => Keeps.look fun m => ?_
  dsimp only
  split
  · exact (Keeps.raise _).bind fun _ => keeps_isolated _ _ _
  · exact keeps_isolated _ _ _

section Successor

variable (h : KeepsAt fuel ctx)

include h

theorem expr_succ (e : Expr) : Keeps (Eval.expr (fuel + 1) ctx e) := by
  rw [Eval.expr]
  exact keeps_tick.bind fun _ => h.compute e

theorem compute_succ (e : Expr) : Keeps (Eval.compute (fuel + 1) ctx e) := by
  cases e with
  | constant d => rw [Eval.compute]; exact Keeps.pure d
  | pieces parts =>
      rw [Eval.compute]
      exact (Keeps.mapM h.expr parts).bind fun _ => Keeps.pure _
  | list items =>
      rw [Eval.compute]
      exact (Keeps.mapM h.expr items).bind fun _ => Keeps.pure _
  | map entries =>
      rw [Eval.compute]
      exact (Keeps.mapM (fun entry => (h.expr entry.2).bind fun _ => Keeps.pure _) entries).bind
        fun _ => Keeps.pure _
  | name s declared => rw [Eval.compute]; exact keeps_read ctx s
  | self => rw [Eval.compute]; exact keeps_readSelf
  | member modules s => rw [Eval.compute]; exact keeps_moduleConstant modules s
  | call function arguments => rw [Eval.compute]; exact h.call function arguments
  | moduleCall modules function arguments =>
      rw [Eval.compute]
      refine (h.moduleArguments arguments).bind fun data => ?_
      dsimp only
      split
      · exact (keeps_ticks _).bind fun _ => keeps_callModule modules function data
      · exact keeps_callModule modules function data
  | unary op e =>
      rw [Eval.compute]
      refine (h.argument e).bind fun d => ?_
      split
      · exact Keeps.pure _
      · exact keeps_tick.bind fun _ => Keeps.lift _
  | binary op a b =>
      rw [Eval.compute]
      refine (h.argument a).bind fun x => (h.argument b).bind fun y => ?_
      split
      · exact Keeps.lift _
      · exact keeps_tick.bind fun _ => Keeps.lift _
  | contains container item =>
      rw [Eval.compute]
      exact (h.argument container).bind fun _ => (h.argument item).bind fun _ =>
        (h.callFocused _ _).onCopy
  | both parts => rw [Eval.compute]; exact Keeps.allAre h.expr _ parts
  | either parts => rw [Eval.compute]; exact Keeps.allAre h.expr _ parts
  | orElse parts => rw [Eval.compute]; exact Keeps.firstValue h.expr parts
  | chain root links =>
      rw [Eval.compute]
      exact (h.steps links).bind fun way => h.onRoot root (h.follow way keeps_focused)
  | block body => rw [Eval.compute]; exact (Keeps.inOrder h.statement body).within

theorem argument_succ (e : Expr) : Keeps (Eval.argument (fuel + 1) ctx e) := by
  rw [Eval.argument]
  split
  · exact keeps_tick.bind fun _ => Keeps.pure _
  · exact h.expr e

theorem keptArgument_succ (e : Expr) : Keeps (Eval.keptArgument (fuel + 1) ctx e) := by
  rw [Eval.keptArgument]
  refine (h.argument e).bind fun d => ?_
  split
  · exact (keeps_cell? _).bind fun _ => Keeps.pure _
  · exact Keeps.pure _

theorem moduleArguments_succ (arguments : List Expr) :
    Keeps (Eval.moduleArguments (fuel + 1) ctx arguments) := by
  rw [Eval.moduleArguments.eq_def]
  dsimp only
  split
  · exact keeps_tick.bind fun _ => (Keeps.mapM h.argument _).bind fun _ =>
      (keeps_read ctx _).bind fun _ => Keeps.pure _
  · exact Keeps.mapM h.argument _

/-- Indices and arguments are expressions, computed in order. -/
theorem steps_succ (links : List Link) : Keeps (Eval.steps (fuel + 1) ctx links) := by
  rw [Eval.steps.eq_def]
  dsimp only
  split
  · exact Keeps.pure _
  · exact Keeps.pure _
  · split
    · exact Keeps.pure _
    · refine Keeps.bind ?_ fun _ => Keeps.pure _
      exact keeps_tick.bind fun _ => (h.expr _).bind fun _ => Keeps.pure _
  · refine Keeps.mapM (fun link => keeps_tick.bind fun _ => ?_) _
    cases link with
    | property s => exact Keeps.pure _
    | index e => exact (h.expr e).bind fun _ => Keeps.pure _
    | method function arguments =>
        exact (Keeps.mapM h.argument arguments).bind fun _ => Keeps.pure _

/-- A chain that starts at a variable works on it in place. -/
theorem onRoot_succ (root : Expr) {x : Eval Datum} (hx : Keeps x) :
    Keeps (Eval.onRoot (fuel + 1) ctx root x) := by
  rw [Eval.onRoot.eq_def]
  dsimp only
  split
  · exact keeps_tick.bind fun _ => hx.onVariable
  · exact keeps_tick.bind fun _ => hx.onSelf
  · exact (h.expr _).bind fun _ => hx.onCopy

/-- Each step follows a part of what is in focus. -/
theorem follow_succ (way : List Step) {x : Eval Datum} (hx : Keeps x) :
    Keeps (Eval.follow (fuel + 1) ctx way x) := by
  rcases way with _ | ⟨first, rest⟩
  · rw [Eval.follow]
    exact hx
  · cases first with
    | access a =>
        rw [Eval.follow]
        exact keeps_tick.bind fun _ => (h.follow rest hx).zoom
    | method function arguments =>
        rw [Eval.follow]
        exact (h.method function arguments).bind fun _ => (h.follow rest hx).onCopy

theorem method_succ (function : String) (arguments : List Datum) :
    Keeps (Eval.method (fuel + 1) ctx function arguments) := by
  rw [Eval.method]
  refine keeps_focused.bind fun d => ?_
  split
  · exact h.apply _ _ _
  · exact h.apply _ _ _
  · exact Keeps.raise _
  · exact Keeps.pure _
  · exact Keeps.raise _
  · exact Keeps.pure _
  · split
    · exact h.apply _ _ _
    · exact h.apply _ _ _

theorem apply_succ (function : String) (arguments : List Datum) (onFocus : Bool) :
    Keeps (Eval.apply (fuel + 1) ctx function arguments onFocus) := by
  rw [Eval.apply.eq_def]
  dsimp only
  split
  · exact h.invoke _ _ _
  · split
    · exact h.native _ _
    · split
      · exact keeps_tick.bind fun _ => (h.outside _ _).bind fun _ => Keeps.pure _
      · exact (h.native _ _).onCopy

theorem call_succ (function : String) (arguments : List Expr) :
    Keeps (Eval.call (fuel + 1) ctx function arguments) := by
  rw [Eval.call.eq_def]
  dsimp only
  split
  · exact (h.argument _).bind keeps_functionNamed
  · refine (h.argument _).bind fun d => ?_
    split
    · exact (Keeps.mapM h.keptArgument _).bind fun _ => Keeps.pure _
    · exact Keeps.raise _
  · refine (h.argument _).bind fun d => ?_
    split
    · exact h.callNamed _ _
    · exact (Keeps.mapM h.argument _).bind fun _ => h.apply _ _ _
    · exact Keeps.raise _
  · refine (h.keptArgument _).bind fun d => ?_
    split <;> exact Keeps.pure _
  · refine (h.argument _).bind fun d => ?_
    split
    · exact Keeps.look fun _ => Keeps.pure _
    · exact Keeps.raise _
  · refine (h.argument _).bind fun d => (h.argument _).bind fun size => ?_
    split
    · exact Keeps.pure _
    · exact Keeps.raise _
  · exact h.callNamed _ _

/-- If the first argument is a variable, the function works on it in place. -/
theorem callNamed_succ (function : String) (arguments : List Expr) :
    Keeps (Eval.callNamed (fuel + 1) ctx function arguments) := by
  rw [Eval.callNamed.eq_def]
  dsimp only
  split
  · split
    · split
      · exact Keeps.pure _
      · exact h.invoke _ _ _
    · exact keeps_tick.bind fun _ => (h.outside _ _).bind fun _ => Keeps.pure _
  · refine keeps_tick.bind fun _ => (Keeps.mapM h.argument _).bind fun data => ?_
    refine (keeps_isOpen _).bind fun isopen => ?_
    split
    · exact (h.callFocused _ _).onVariable
    · exact (keeps_read ctx _).bind fun _ => (h.callFocused _ _).onCopy
  · exact (h.argument _).bind fun _ => (Keeps.mapM h.argument _).bind fun _ =>
      (h.callFocused _ _).onCopy

theorem callFocused_succ (function : String) (rest : List Datum) :
    Keeps (Eval.callFocused (fuel + 1) ctx function rest) := by
  rw [Eval.callFocused]
  refine keeps_focused.bind fun first => ?_
  split
  · split
    · exact Keeps.pure _
    · exact h.invoke _ _ _
  · split
    · exact Keeps.pure _
    · exact h.native _ _

theorem native_succ (function : String) (rest : List Datum) :
    Keeps (Eval.native (fuel + 1) ctx function rest) := by
  rw [Eval.native]
  refine keeps_tick.bind fun _ => (keeps_listChange? _ _).bind fun found => ?_
  split
  · exact keeps_changeList _
  · refine keeps_focused.bind fun _ => (h.outside _ _).bind fun effect => ?_
    dsimp only
    split
    · exact (keeps_change _).bind fun _ => Keeps.pure _
    · exact Keeps.pure _

theorem outside_succ (function : String) (arguments : List Datum) :
    Keeps (Eval.outside (fuel + 1) ctx function arguments) := by
  rw [Eval.outside.eq_def]
  dsimp only
  split
  · exact Keeps.throw _
  · exact Keeps.throw _
  · split
    · next hfound =>
      exact (keeps_functionOf? hfound).bind fun _ =>
        (Keeps.mapM (fun _ => h.callItem _ _ _ _) _).bind fun _ => Keeps.pure _
    · split
      · next hfound => exact keeps_outside? hfound
      · exact Keeps.raise _
  · split
    · next hfound =>
      exact (keeps_functionOf? hfound).bind fun _ =>
        (Keeps.mapM (fun _ => h.callItem _ _ _ _) _).bind fun _ => Keeps.pure _
    · split
      · next hfound => exact keeps_outside? hfound
      · exact Keeps.raise _
  · split
    · next hfound =>
      exact (keeps_functionOf? hfound).bind fun _ => (Keeps.sortBy (fun _ _ =>
        (h.callPair _ _ _ _).result?.bind fun _ => Keeps.pure _) _).bind fun _ => Keeps.pure _
    · split
      · next hfound => exact keeps_outside? hfound
      · exact Keeps.raise _
  · split
    · next hfound _ =>
      refine (keeps_functionOf? hfound).bind fun found =>
        (Keeps.walking (fun index item => (h.callItem _ _ _ _).bind fun d => ?_) _ _).bind
          fun place => ?_
      · split <;> exact Keeps.pure _
      · split <;> exact Keeps.pure _
    · split
      · next hfound => exact keeps_outside? hfound
      · exact Keeps.raise _
  · split
    · next hfound => exact keeps_outside? hfound
    · exact Keeps.raise _

theorem callItem_succ (name : String) (curried : List Datum) (item : Datum) (index : Nat) :
    Keeps (Eval.callItem (fuel + 1) ctx name curried item index) := by
  rw [Eval.callItem]
  refine Keeps.callback ?_
  dsimp only
  split
  · exact (h.invoke _ _ _).onCopy
  · next hfound => exact (keeps_outside? hfound).bind fun _ => Keeps.pure _
  · exact h.invoke _ _ _
  · next hfound => exact (keeps_outside? hfound).bind fun _ => Keeps.pure _
  · exact h.invoke _ _ _
  · split
    · next hfound => exact (keeps_outside? hfound).bind fun _ => Keeps.pure _
    · exact Keeps.raise _

theorem callPair_succ (name : String) (curried : List Datum) (a b : Datum) :
    Keeps (Eval.callPair (fuel + 1) ctx name curried a b) := by
  rw [Eval.callPair]
  refine Keeps.callback ?_
  dsimp only
  split
  · exact h.invoke _ _ _
  · next hfound => exact (keeps_outside? hfound).bind fun _ => Keeps.pure _
  · exact Keeps.raise _

/-- An assignment changes the datum of a variable, which stays where it is. -/
theorem assignTo_succ (target : Expr) (op : Option Binary) (d : Datum) :
    Keeps (Eval.assignTo (fuel + 1) ctx target op d) := by
  rw [Eval.assignTo.eq_def]
  dsimp only
  split
  · refine keeps_tick.bind fun _ => Keeps.look fun m => ?_
    split
    · exact (Keeps.raise _).bind fun _ => (keeps_assignFocus op d).onVariable
    · exact (keeps_assignFocus op d).onVariable
  · exact keeps_tick.bind fun _ => (keeps_assignFocus op d).onSelf
  · refine (h.steps _).bind fun way => ?_
    split
    · refine Keeps.bind (h.onRoot _ (h.follow _ ?_)) fun _ => Keeps.pure _
      exact (keeps_assignPart _ op d).bind fun _ => Keeps.pure _
    · exact Keeps.raise _
  · exact Keeps.raise _

/-- What an optional expression gives. -/
theorem optional (e : Option Expr) :
    Keeps (match e with
      | some e => Eval.expr fuel ctx e
      | none => Pure.pure Datum.unit) := by
  split
  · exact h.expr _
  · exact Keeps.pure _

/-- Only declarations add variables, and blocks forget theirs. -/
theorem statement_succ (s : Stmt) : Keeps (Eval.statement (fuel + 1) ctx s) := by
  have hrun : ∀ body, Keeps (Eval.inOrder (Eval.statement fuel ctx) body) :=
    Keeps.inOrder h.statement
  rw [Eval.statement.eq_def]
  refine keeps_tick.bind fun _ => ?_
  cases s with
  | noop => exact Keeps.pure _
  | expr e => exact h.expr e
  | perform e => exact h.compute e
  | declare constant s e =>
      refine (h.expr e).bind fun d => ?_
      dsimp only
      split
      · exact (keeps_declareConstant s d).bind fun _ => Keeps.pure _
      · exact (keeps_declare s d).bind fun _ => Keeps.pure _
  | assign target op e =>
      exact (h.expr e).bind fun d => (h.assignTo target op d).bind fun _ => Keeps.pure _
  | block body => exact (hrun body).within
  | branch condition yes no =>
      refine (h.expr condition).bind fun d => (keeps_truth d).bind fun holds => ?_
      split
      · exact (hrun yes).within
      · exact (hrun no).within
  | select subject cases otherwise =>
      refine (h.expr subject).bind fun d => (Keeps.chosen h.expr _).bind fun body => ?_
      split
      · exact h.expr _
      · exact h.optional otherwise
  | forever body =>
      refine Keeps.repeating ?_ _
      dsimp only
      split
      · exact keeps_tick.bind fun _ => (hrun body).roundOf
      · exact (hrun body).roundOf
  | repeatWhile condition body =>
      refine Keeps.repeating ((h.expr condition).bind fun d => (keeps_truth d).bind
        fun holds => ?_) _
      split
      · exact (hrun body).roundOf
      · exact Keeps.pure _
  | repeatAfter body condition goOn =>
      refine Keeps.repeating ((hrun body).round.bind fun ending => ?_) _
      split
      · exact Keeps.pure _
      · exact Keeps.pure _
      · refine (h.expr condition).bind fun d => (keeps_truth d).bind fun holds => ?_
        split <;> exact Keeps.pure _
  | forEach s counter source body =>
      refine (h.expr source).bind fun d => Keeps.within ?_
      -- A round gives values to the variables of the loop and then runs the body.
      have hround : ∀ (index : Nat) (item : Datum), Keeps (assign s item >>= fun _ =>
          if body.isEmpty = true then tick >>= fun _ =>
            Eval.roundOf (Eval.inOrder (Eval.statement fuel ctx) body)
          else Eval.roundOf (Eval.inOrder (Eval.statement fuel ctx) body)) := by
        intro index item
        refine (keeps_assign s item).bind fun _ => ?_
        split
        · exact keeps_tick.bind fun _ => (hrun body).roundOf
        · exact (hrun body).roundOf
      cases counter with
      | none => exact (keeps_declare s _).bind fun _ => Keeps.overItems hround d
      | some counter =>
          exact (keeps_declare counter _).bind fun _ => (keeps_declare s _).bind fun _ =>
            Keeps.overItems (fun index item =>
              (keeps_assign counter _).bind fun _ => hround index item) d
  | leave e => exact (h.optional e).bind fun _ => Keeps.throw _
  | again => exact Keeps.throw _
  | finish e => exact (h.optional e).bind fun _ => Keeps.throw _
  | throw e => exact (h.optional e).bind fun _ => Keeps.raise _
  | attempt body caught handler =>
      refine (hrun body).within.attempt fun d => Keeps.within ?_
      dsimp only
      split
      · exact (keeps_declare _ d).bind fun _ => hrun handler
      · exact hrun handler
  | load e => exact (h.expr e).bind fun _ => Keeps.raise _
  | share names => exact (Keeps.forM keeps_share names).bind fun _ => Keeps.pure _

end Successor
end KeepsAt

/-- Whatever the depth, the evaluation keeps the variables that are there. -/
theorem keepsAt (fuel : Nat) (ctx : Context) : KeepsAt fuel ctx := by
  induction fuel with
  | zero => exact KeepsAt.zero ctx
  | succ fuel ih =>
      exact {
        expr := ih.expr_succ
        compute := ih.compute_succ
        argument := ih.argument_succ
        keptArgument := ih.keptArgument_succ
        moduleArguments := ih.moduleArguments_succ
        steps := ih.steps_succ
        onRoot := fun root _ hx => ih.onRoot_succ root hx
        follow := fun way _ hx => ih.follow_succ way hx
        method := ih.method_succ
        apply := ih.apply_succ
        call := ih.call_succ
        callNamed := ih.callNamed_succ
        callFocused := ih.callFocused_succ
        native := ih.native_succ
        invoke := KeepsAt.invoke_succ
        outside := ih.outside_succ
        callItem := ih.callItem_succ
        callPair := ih.callPair_succ
        statement := ih.statement_succ
        assignTo := ih.assignTo_succ }

end Eval

/-! ## Formulas -/

/-- A formula that runs to its end, however it ends, keeps the variables that are there. -/
theorem Program.names_run {program : Program} {host : HostFunctions} {m m' : Machine} {d : Datum}
    (h : program.run host m = (.ok d, m')) : m.names <:+ m'.names := by
  have hkeeps := Eval.Keeps.inOrder (Eval.keepsAt fuel ⟨program.routines, host⟩).statement
    program.body m
  unfold Program.run at h
  unfold Eval.after at hkeeps
  cases hrun : Eval.inOrder (Eval.statement fuel ⟨program.routines, host⟩) program.body m with
  | ok d' n =>
      rw [hrun] at h hkeeps
      cases h
      exact hkeeps
  | error signal n =>
      rw [hrun] at h hkeeps
      cases signal with
      | finish d' =>
          cases h
          exact hkeeps
      | exit d' =>
          cases h
          exact hkeeps
      | trouble t => cases h
      | leave d' => cases h
      | again => cases h

/-- The interpreter never takes a bound variable away, and never puts one between those that are
there. -/
theorem keepsNames_interpreter : interpreter.KeepsNames := by
  intro host use text bound generator ending h
  change Interpreter.run host use text bound generator = .ok ending at h
  unfold Interpreter.run at h
  split at h
  · cases h
  · split at h
    · cases h
    · next hrun =>
      cases h
      have hnames := Program.names_run hrun
      have hbound : (Machine.start bound generator).names = (bound.map Prod.fst).reverse := by
        simp [Machine.names, Machine.start, Function.comp_def]
      rw [hbound, Machine.names] at hnames
      simpa [Machine.ending, Function.comp_def] using List.reverse_prefix.2 hnames

end Formula
end StoryPlayer
