import StoryPlayer.Proofs.Origin
import StoryPlayer.Proofs.Places

/-!
# Variables that are lent

A script that is called with references starts with the values that their paths lead to, and it is
given the paths to hand the last values back.

- `Act.lent` are the references of a call,
- `passed_at` takes the arguments of a call apart at one of them,
- `Player.Calls` is a step in which a script is called that returns to its caller, and
  `Player.Calls.lends` says what the script starts with.
-/

namespace StoryPlayer

variable {story : Story} {p q : Player}

/-! ## Arguments in order -/

/-- The references of a call: the names of the parameters and the paths that are bound to them, in
order. -/
def Act.lent : List Param → List Argument → List (String × String)
  | param :: params, argument :: arguments =>
    if param.byRef then (param.name, argument.source) :: lent params arguments
    else lent params arguments
  | _, _ => []

section Arguments

variable {script : String} {excess : Fault} {params : List Param} {arguments : List Argument}
  {passed passed' : Act.Passed} {param : Param} {argument : Argument}

namespace ArgumentsPassed

/-- The references are bound one after the other. -/
theorem refs_eq (h : ArgumentsPassed story params arguments passed p passed' q) :
    passed'.refs = (Act.lent params arguments).foldl
      (fun refs binding => Dict.insert refs binding.1 binding.2) passed.refs := by
  induction h with
  | @nil params _ _ => cases params <;> rfl
  | cons hfirst _ ih =>
      cases hfirst with
      | byRef href _ _ => simpa [Act.lent, href] using ih
      | byValue href _ _ => simpa [Act.lent, href] using ih

/-- The values of arguments are kept in order of the names. -/
theorem sorted (h : ArgumentsPassed story params arguments passed p passed' q)
    (hsorted : Dict.Sorted passed.values) : Dict.Sorted passed'.values := by
  induction h with
  | nil => exact hsorted
  | cons hfirst _ ih =>
      refine ih ?_
      cases hfirst <;> exact Dict.sorted_insert hsorted _ _

/-- A value stays that no further argument is passed for. -/
theorem get?_values {name : String}
    (h : ArgumentsPassed story params arguments passed p passed' q)
    (hname : ∀ entry ∈ params.zip arguments, entry.1.name ≠ name) :
    Dict.get? passed'.values name = Dict.get? passed.values name := by
  induction h with
  | nil => rfl
  | cons hfirst _ ih =>
      rw [List.zip_cons_cons, List.forall_mem_cons] at hname
      rw [ih hname.2]
      cases hfirst <;> simp [Dict.get?_insert, hname.1]

end ArgumentsPassed

/-- The arguments before one of them are passed, then that one, then the others. -/
theorem passed_at {index : Nat}
    (h : Act.passArguments story script excess params arguments passed p = .ok (passed', q))
    (hparam : params[index]? = some param) (hargument : arguments[index]? = some argument) :
    ∃ before r after s,
      Act.passArguments story script excess (params.take index) (arguments.take index) passed p =
          .ok (before, r) ∧
        ArgumentPassed story param argument before r after s ∧
        ArgumentsPassed story (params.drop (index + 1)) (arguments.drop (index + 1)) after s
          passed' q := by
  induction arguments generalizing params passed p index with
  | nil => simp at hargument
  | cons first rest ih =>
      cases params with
      | nil => exact (Act.fail_eq_ok.1 h).elim
      | cons head params =>
          rcases Act.bind_eq_ok.1 h with ⟨middle, r, hfirst, hrest⟩
          cases index with
          | zero =>
              rcases Option.some.inj hparam with rfl
              rcases Option.some.inj hargument with rfl
              have hnone : Act.passArguments story script excess [] [] passed p =
                  .ok (passed, p) := by rw [Act.passArguments]; rfl
              exact ⟨passed, p, middle, r, hnone, argumentPassed_of_passArgument hfirst,
                argumentsPassed_of_passArguments hrest⟩
          | succ index =>
              rcases ih hrest hparam hargument with ⟨before, s, after, t, hbefore, hat, hafter⟩
              refine ⟨before, s, after, t, ?_, hat, hafter⟩
              exact Act.bind_eq_ok.2 ⟨middle, r, hfirst, hbefore⟩

/-- Arguments are the values of the parameters they are given to. -/
theorem get?_of_assign {values : Dict Value} {locals locals' : Locals} {name : String}
    {value : Value} (h : Locals.assign script values locals = .ok locals')
    (hdistinct : (Dict.keys values).Nodup)
    (hvalue : Dict.get? values name = some value ∨
      Dict.contains values name = false ∧ Dict.get? locals.scope name = some value) :
    Dict.get? locals'.scope name = some value := by
  induction values generalizing locals with
  | nil =>
      cases h
      rcases hvalue with hnone | ⟨-, hscope⟩
      · cases hnone
      · exact hscope
  | cons entry rest ih =>
      rcases entry with ⟨key, first⟩
      rcases List.nodup_cons.1 hdistinct with ⟨hfresh, hdistinct⟩
      simp only [Locals.assign] at h
      split at h
      · cases h
      · split at h
        · refine ih h hdistinct ?_
          by_cases hkey : key = name
          · -- The value is assigned now; the name does not come again.
            subst hkey
            have hnone : Dict.contains rest key = false := by
              rw [← Bool.not_eq_true, Dict.contains_iff_mem_keys]
              exact hfresh
            have hfirst : first = value := by simpa [Dict.get?, Dict.contains] using hvalue
            exact Or.inr ⟨hnone, by simp [Dict.get?_insert, hfirst]⟩
          · simpa [Dict.get?, Dict.get?_insert, Dict.contains, hkey] using hvalue
        · cases h

/-- A parameter starts with the value that was passed for it. -/
theorem get?_of_locals {values : Dict Value} {locals : Locals} {name : String} {value : Value}
    (h : story.locals script values = .ok locals) (hdistinct : (Dict.keys values).Nodup)
    (hvalue : Dict.get? values name = some value) : Dict.get? locals.scope name = some value := by
  unfold Story.locals at h
  split at h
  · cases h
  · exact get?_of_assign h hdistinct (Or.inl hvalue)

end Arguments

/-! ## Calls -/

/-- A step in which the innermost frame `f` calls a script that returns to it. -/
structure Player.Calls (story : Story) (p q : Player) (f : Frame) (below : List Frame)
    (target : String) (callee : Script) (arguments : List Argument) : Prop where
  frames : p.frames = f :: below
  /-- The frame stands at the call, which is no tail call. -/
  standing : ∃ found id, story.group f.group = .ok found ∧
    found.2.nodes[f.node]? = some (.call id target arguments) ∧
    Act.isTailCall f found.2.nodes.length = false
  callee : Dict.get? story.scripts target = some callee
  step : p.dispatch story = (.running, q)

/-- What a script that is called starts with: its frame `entry` above those that were there. -/
structure Player.Lends (story : Story) (p q : Player) (f : Frame) (target : String)
    (callee : Script) (arguments : List Argument) (entry : Frame) (under : List Frame) : Prop where
  frames : q.frames = entry :: under
  rest : Frames.Revalued p.frames under
  id : entry.id = p.counter
  root : entry.root = true
  /-- It returns behind the call, with the references of the call. -/
  continuation : entry.continuation =
    some ⟨f.id, f.node + 1, Dict.ofList (Act.lent callee.params arguments)⟩
  /-- A reference parameter has the value that its path leads to in the state `r` in which its
  argument is passed; all names mean variables of the same frames there as before the call.
  A later parameter of the same name would take its place. -/
  values : ∀ index param argument, callee.params[index]? = some param →
    arguments[index]? = some argument → param.byRef = true →
    (∀ later ∈ (callee.params.zip arguments).drop (index + 1), later.1.name ≠ param.name) →
    ∃ passed r value,
      Act.passArguments story target
          (.callArguments target arguments.length callee.params.length)
          (callee.params.take index) (arguments.take index) ⟨[], []⟩ p = .ok (passed, r) ∧
        (∀ name, Frames.owner? r.frames name = Frames.owner? p.frames name) ∧
        Frames.readPath story r.frames argument.source = .ok value ∧
        Dict.get? entry.scope param.name = some value

/-- A path that can be passed by reference can be read. -/
theorem readPath_of_readRef {frames : List Frame} {text : String} {value : Value}
    (h : Frames.readRef story frames text = .ok value) :
    Frames.readPath story frames text = .ok value := by
  rcases ok_of_bind h with ⟨path, -, hread⟩
  split at hread
  · cases hread
  · exact hread

namespace Player.Calls

variable {f : Frame} {below : List Frame} {target : String} {callee : Script}
  {arguments : List Argument}

/-- All that a call does. -/
theorem entered (h : p.Calls story q f below target callee arguments) :
    ∃ passed locals r,
      Act.passArguments story target
          (.callArguments target arguments.length callee.params.length) callee.params arguments
          ⟨[], []⟩ p = .ok (passed, r) ∧
        story.locals target passed.values = .ok locals ∧
        q = r.push (rootFrame callee.root locals (some ⟨f.id, f.node + 1, passed.refs⟩)) := by
  rcases h.standing with ⟨found, id, hgroup, hnode, htail⟩
  cases move_of_running h.step h.frames hgroup hnode with
  | @call _ _ _ callee' passed locals r g under _ _ hr _ hcallee _ hpassed _ hlocals =>
      rcases Option.some.inj (h.callee.symm.trans hcallee) with rfl
      have heval := (Act.evaluates_passArguments story _ _ _ _ _).ok hpassed
      rcases heval.cons hr with ⟨_, _, hp, hhead, -⟩
      rcases List.cons.inj (h.frames.symm.trans hp) with ⟨rfl, rfl⟩
      refine ⟨passed, locals, r, hpassed, hlocals, ?_⟩
      rw [hhead.same]
  | @tailCall _ _ _ callee' values locals c r g under _ _ hr hgroup' _ _ hpassed hroot hc hlast =>
      -- The frame would have to be at the end of a script that has a caller.
      have heval := (Act.evaluates_passArguments story _ _ _ _ _).ok hpassed
      rcases heval.cons hr with ⟨_, _, hp, hhead, -⟩
      rcases List.cons.inj (h.frames.symm.trans hp) with ⟨rfl, rfl⟩
      rw [hhead.same] at hgroup'
      rcases Except.ok.inj (hgroup.symm.trans hgroup') with rfl
      have his := isTailCall_eq_true.2 ⟨hroot, ⟨c, hc⟩, hlast⟩
      rw [isTailCall_congr hhead, htail] at his
      cases his

/-- A call lends the variables that the paths of its references lead to. -/
theorem lends (h : p.Calls story q f below target callee arguments) :
    ∃ entry under, p.Lends story q f target callee arguments entry under := by
  rcases h.entered with ⟨passed, locals, r, hpassed, hlocals, rfl⟩
  have heval := (Act.evaluates_passArguments story _ _ _ _ _).ok hpassed
  have hrefs : passed.refs = Dict.ofList (Act.lent callee.params arguments) :=
    (argumentsPassed_of_passArguments hpassed).refs_eq
  refine ⟨_, _, rfl, heval.frames, heval.counter, rfl, by rw [← hrefs]; rfl, ?_⟩
  intro index param argument hparam hargument href hlast
  rcases passed_at hpassed hparam hargument with ⟨before, s, after, t, hbefore, hat, hafter⟩
  have hs := (Act.evaluates_passArguments story _ _ _ _ _).ok hbefore
  cases hat with
  | byRef _ _ hread =>
      refine ⟨before, s, _, hbefore, hs.frames.owner?, readPath_of_readRef hread, ?_⟩
      have hsorted := (argumentsPassed_of_passArguments hpassed).sorted List.Pairwise.nil
      refine get?_of_locals hlocals (Dict.nodup_keys hsorted) ?_
      rw [hafter.get?_values (by simpa [List.zip, List.drop_zipWith] using hlast)]
      simp [Dict.get?_insert]
  | byValue hvalue _ _ => simp [href] at hvalue

end Player.Calls
end StoryPlayer
