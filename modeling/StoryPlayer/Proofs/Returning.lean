import StoryPlayer.Proofs.Freezing
import StoryPlayer.Proofs.Lending

/-!
# Variables that are handed back

A script that was called with references hands their last values back to the variables that the
paths led to when it was called, whatever has been played in between.

- `Player.Rests` says that the frames below a script that was called are still those of the call,
  and that it returns there; `Story.Run.rests` carries this along a run,
- `Player.Ends` is a step that ends a script, and `ends_of_running` shows that it writes the
  references back,
- `lent_returned` states what a call does with its references from the call to the return.
-/

namespace StoryPlayer

variable {story : Story} {p q : Player}

/-! ## Frames below a script -/

namespace Frames

variable {fs gs lower rest : List Frame} {f g x y : Frame}

/-- Only one lower part of a stack begins with a frame of a given number. -/
theorem eq_of_suffix (h : fs.Pairwise fun upper lower => lower.id < upper.id)
    (hx : x :: lower <:+ fs) (hy : y :: rest <:+ fs) (hid : x.id = y.id) :
    x :: lower = y :: rest := by
  -- Of two suffixes one is part of the other, so its first frame would be there twice.
  have hpart : ∀ {x y : Frame} {lower rest : List Frame}, x :: lower <:+ y :: rest →
      y :: rest <:+ fs → x.id = y.id → x :: lower = y :: rest := by
    intro x y lower rest hsuffix hfs hid
    rcases List.suffix_cons_iff.1 hsuffix with heq | hinner
    · exact heq
    · have hincreasing := List.pairwise_cons.1 (h.sublist hfs.sublist)
      have hlt := hincreasing.1 x (hinner.subset List.mem_cons_self)
      rw [hid] at hlt
      exact absurd hlt (UInt64.lt_irrefl _)
  rcases List.suffix_or_suffix_of_suffix hx hy with hfirst | hsecond
  · exact hpart hfirst hy hid
  · exact (hpart hsecond hx hid.symm).symm

theorem rtake_length (fs : List Frame) : fs.rtake fs.length = fs := by
  simp [List.rtake]

/-- Stacks that end a stack of increasing numbers are the same if they begin with the same number.
-/
theorem eq_of_head? (h : fs.Pairwise fun upper lower => lower.id < upper.id) (hgs : gs <:+ fs)
    (hx : x :: lower <:+ fs) (hid : gs.head?.map Frame.id = some x.id) : gs = x :: lower := by
  cases gs with
  | nil => cases hid
  | cons y rest => exact eq_of_suffix h hgs hx (Option.some.inj hid)

theorem Revalued.head? (h : Revalued fs gs) :
    gs.head?.map Frame.id = fs.head?.map Frame.id := by
  cases h with
  | nil => rfl
  | cons hhead _ => simp [hhead.id]

/-- If two frames stand above a frame of the same number, what lies below them is the same up to
values. -/
theorem SameBelow.under (h : SameBelow fs gs)
    (hfs : fs.Pairwise fun upper lower => lower.id < upper.id)
    (hgs : gs.Pairwise fun upper lower => lower.id < upper.id)
    (hf : f :: x :: lower <:+ fs) (hg : g :: y :: rest <:+ gs) (hid : x.id = y.id) :
    Revalued (x :: lower) (y :: rest) := by
  have hx : x :: lower <:+ fs := (List.suffix_cons _ _).trans hf
  have hy : y :: rest <:+ gs := (List.suffix_cons _ _).trans hg
  have hfLength := hf.length_le
  have hgLength := hg.length_le
  simp only [List.length_cons] at hfLength hgLength
  -- The shorter part lies below the innermost frames of both stacks.
  rcases Nat.le_total (x :: lower).length (y :: rest).length with hle | hle
  · have hlow := h.lowest (d := (x :: lower).length) (by simp; omega) (by simp at hle ⊢; omega)
    rw [rtake_of_suffix hx (Nat.le_refl _), rtake_length] at hlow
    have hpart : gs.rtake (x :: lower).length <:+ gs := List.drop_suffix _ _
    rwa [eq_of_head? hgs hpart hy (hlow.head?.trans (congrArg some hid))] at hlow
  · have hlow := h.lowest (d := (y :: rest).length) (by simp at hle ⊢; omega) (by simp; omega)
    rw [rtake_of_suffix hy (Nat.le_refl _), rtake_length] at hlow
    have hpart : fs.rtake (y :: rest).length <:+ fs := List.drop_suffix _ _
    rwa [eq_of_head? hfs hpart hx (hlow.head?.symm.trans (congrArg some hid.symm))] at hlow

/-- The innermost frame in which a script has started does not depend on values. -/
theorem Revalued.currentRoot? (h : Revalued fs gs) (hroot : currentRoot? fs = some (f, lower)) :
    ∃ g under, Frames.currentRoot? gs = some (g, under) ∧ f.Revalued g ∧ Revalued lower under := by
  unfold Revalued at h
  induction h with
  | nil => cases hroot
  | @cons first second rest others hhead htail ih =>
      have hsame : second.root = first.root := by rw [hhead.same]
      simp only [Frames.currentRoot?] at hroot ⊢
      by_cases his : first.root = true
      · rw [if_pos his] at hroot
        rw [if_pos (hsame.trans his)]
        cases hroot
        exact ⟨second, others, rfl, hhead, htail⟩
      · rw [if_neg his] at hroot
        rw [if_neg (hsame ▸ his)]
        exact ih hroot

end Frames

open Frames (Revalued SameBelow)

/-- As long as the script with the number `id` runs, the frames below it are the frames `rest` up
to values, and it returns to `c`. -/
structure Player.Rests (id : UInt64) (c : Continuation) (rest : List Frame) (p : Player) :
    Prop where
  numbered : id < p.counter
  below : ∀ root lower, root :: lower <:+ p.frames → root.id = id →
    root.root = true ∧ root.continuation = some c ∧ Revalued rest lower

namespace Player.Rests

variable {id : UInt64} {c : Continuation} {rest : List Frame}

/-- What is below the script is kept if frames only change at the top and the number is not used
again. -/
theorem onward (h : p.Rests id c rest) (hp : p.WellFormed story) (hq : q.WellFormed story)
    (hcounter : p.counter ≤ q.counter) (hsame : SameBelow p.frames q.frames)
    (horigin : ∀ g ∈ q.frames, g.id = id → ∃ f ∈ p.frames, f.Inherits g) : q.Rests id c rest := by
  refine ⟨UInt64.lt_of_lt_of_le h.numbered hcounter, fun root lower hroot hid => ?_⟩
  rcases horigin root (hroot.subset List.mem_cons_self) hid with ⟨f, hf, hinherits⟩
  rcases List.append_of_mem hf with ⟨above, under, hframes⟩
  have hsuffix : f :: under <:+ p.frames := ⟨above, hframes.symm⟩
  rcases h.below f under hsuffix (hinherits.id.symm.trans hid) with ⟨his, hc, hunder⟩
  have hc' : root.continuation = some c := hinherits.continuation.trans hc
  refine ⟨hinherits.root.trans his, hc', hunder.trans ?_⟩
  -- Both before and after the frame below is the one to which the script returns.
  have hstack := hp.stacked.suffix hsuffix
  have hstack' := hq.stacked.suffix hroot
  rcases hstack.below_of_continuation hc with ⟨x, others, rfl⟩
  rcases hstack'.below_of_continuation hc' with ⟨y, others', rfl⟩
  have hid' : x.id = y.id := (hstack.caller hc).1.symm.trans (hstack'.caller hc').1
  exact hsame.under hp.stacked.increasing hq.stacked.increasing hsuffix hroot hid'

/-- While the called script runs, the frames below it rest: a step leaves them alone. -/
theorem step {progress : Progress} (h : p.Rests id c rest) (hstep : Step story p progress q)
    (hp : p.WellFormed story) (hq : q.WellFormed story) (hcounter : p.counter ≤ q.counter) :
    q.Rests id c rest := by
  refine h.onward hp hq hcounter (hstep.sameBelow hp.stacked) fun g hg hid => ?_
  have hold : g.id ≠ p.counter := hid ▸ UInt64.ne_of_lt h.numbered
  rcases hstep.origin with hinherited | ⟨node, -, -, horigin⟩
  · exact hinherited g hg
  · cases horigin g hg with
    | kept hf hinherits => exact ⟨_, hf, hinherits⟩
    | entered hnew _ _ => exact absurd hnew hold
    | started _ _ _ _ hnew => exact absurd (congrArg Frame.id hnew) hold

/-- An answer does too. -/
theorem answer {index : Nat} (h : p.Rests id c rest) (hanswer : Answer story p index q)
    (hp : p.WellFormed story) (hq : q.WellFormed story) (hcounter : p.counter ≤ q.counter) :
    q.Rests id c rest := by
  refine h.onward hp hq hcounter (hanswer.sameBelow hp) fun g hg hid => ?_
  rcases hanswer.origin g hg with hinherits | ⟨hnew, -, -⟩
  · exact hinherits
  · exact absurd hnew (hid ▸ UInt64.ne_of_lt h.numbered)

end Player.Rests

/-- What is below a script is kept for the rest of the run. -/
theorem Story.Run.rests {id : UInt64} {c : Continuation} {rest : List Frame}
    {run past : List (Started × Player)} {first last : Started × Player} (h : story.Run run)
    (hfirst : first :: past <:+ run) (hlast : run.head? = some last)
    (hrests : first.2.Rests id c rest) : last.2.Rests id c rest := by
  have hhead : ∀ {s : Started × Player} {before : List (Started × Player)},
      first :: past = s :: before → s.2.Rests id c rest := by
    intro s before heq
    rcases List.cons.inj heq with ⟨rfl, -⟩
    exact hrests
  -- Either the last state is the first one, or the state before it rests already.
  induction h generalizing last with
  | start _ =>
      rcases Option.some.inj hlast with rfl
      rcases List.suffix_cons_iff.1 hfirst with heq | hnil
      · exact hhead heq
      · simp at hnil
  | step hrun hpending hdispatch hcounter ih =>
      rcases Option.some.inj hlast with rfl
      rcases List.suffix_cons_iff.1 hfirst with heq | hearlier
      · exact hhead heq
      · rcases hrun.registered _ List.mem_cons_self with ⟨hp, -⟩
        have hstep := step_of_dispatch hdispatch
        exact (ih hearlier rfl).step hstep hp (hstep.wellFormed hp hpending hcounter) hcounter
  | answer hrun hanswer hcounter ih =>
      rcases Option.some.inj hlast with rfl
      rcases List.suffix_cons_iff.1 hfirst with heq | hearlier
      · exact hhead heq
      · rcases hrun.registered _ List.mem_cons_self with ⟨hp, -⟩
        exact (ih hearlier rfl).answer hanswer hp (hanswer.wellFormed hp hcounter) hcounter

/-- When a script has been called, the frames of the call are below it. -/
theorem Player.Lends.rests {f entry : Frame} {target : String} {callee : Script}
    {arguments : List Argument} {under : List Frame}
    (h : p.Lends story q f target callee arguments entry under) (hq : q.WellFormed story) :
    q.Rests p.counter ⟨f.id, f.node + 1, Dict.ofList (Act.lent callee.params arguments)⟩
      p.frames := by
  have hstack := hq.stacked
  rw [h.frames] at hstack
  refine ⟨h.id ▸ hstack.numbered entry List.mem_cons_self, fun root lower hroot hid => ?_⟩
  rw [h.frames] at hroot
  have heq := Frames.eq_of_suffix hstack.increasing hroot (List.suffix_refl _) (hid.trans h.id.symm)
  rcases List.cons.inj heq with ⟨rfl, rfl⟩
  exact ⟨h.root, h.continuation, h.rest⟩

/-! ## Steps that end a script -/

/-- How the next step ends the innermost script, if it does: `none` if it goes back to its caller,
since its nodes are used up or at a return, and otherwise the script that takes its place. -/
def Player.ending? (story : Story) (p : Player) : Option (Option String) :=
  match p.frames with
  | [] => none
  | f :: _ =>
    match f.current? story with
    | none => if f.root then some none else none
    | some (.finish _ target _) => some target
    | some _ => none

/-- A step from `p` to `q` ends the script in whose first frame, `root`, variables have their last
values.  The frames below it are `before` when the references are handed back, and `after` once they
have been. -/
inductive Player.Ends (story : Story) (p q : Player) :
    Option String → Frame → List Frame → List Frame → Prop
  /-- The frame below goes on behind its call. -/
  | back {root lower : Frame} {before under : List Frame} :
      Frames.currentRoot? p.frames = some (root, before) →
      q.frames = lower.advanced :: under → Ends story p q none root before (lower :: under)
  /-- Another script takes the place.  Its arguments are computed first. -/
  | replaced {name target : String} {arguments : List Argument} {callee : Script}
      {values : Dict Value} {r : Player} {root entry : Frame} {before after : List Frame} :
      p.StandsAt story (.finish name (some target) arguments) →
      Dict.get? story.scripts target = some callee →
      Act.transferArguments story target
          (.returnArguments target arguments.length callee.params.length) callee.params arguments
          [] p = .ok (values, r) →
      Frames.currentRoot? r.frames = some (root, before) →
      q.frames = entry :: after → Ends story p q (some target) root before after

/-- A script that goes back to its caller writes the references back. -/
theorem back_of_settle {counter : UInt64} {root : Frame} {below : List Frame} {c : Continuation}
    (hstack : Frames.Stacked story counter (root :: below)) (hroot : root.root = true)
    (hc : root.continuation = some c)
    (h : Player.settle story root.scope root.continuation { p with frames := below } =
      (.ok (), q)) :
    ∃ lower under, Frames.writeBack story root.scope c.refs below = (.ok (), lower :: under) ∧
      q.frames = lower.advanced :: under := by
  have hsettled := settled_of_settle hstack hroot rfl h
  rw [hc] at hsettled
  cases hsettled with
  | back hback => exact ⟨_, _, hback, rfl⟩

/-- The references of a script are written back when its nodes are used up. -/
theorem ends_of_finishFrame {root : Frame} {below : List Frame} {c : Continuation}
    (hp : p.WellFormed story) (hframes : p.frames = root :: below) (hroot : root.root = true)
    (hc : root.continuation = some c) (h : p.finishFrame story root.id = (.ok (), q)) :
    ∃ after, p.Ends story q none root below after ∧
      Frames.writeBack story root.scope c.refs below = (.ok (), after) := by
  have hstack := hp.stacked
  rw [hframes] at hstack
  rw [finishFrame_top hstack hframes, if_pos hroot] at h
  rcases back_of_settle hstack hroot hc h with ⟨lower, under, hback, hq⟩
  refine ⟨lower :: under, Player.Ends.back ?_ hq, hback⟩
  simp [hframes, Frames.currentRoot?, hroot]

/-- They are written back by a return.  The arguments of one to another script may change values
before. -/
theorem Move.ends {script name : String} {target : Option String} {arguments : List Argument}
    {out : Option Output} {root : Frame} {below : List Frame} {c : Continuation}
    (h : Move story script p (.finish name target arguments) out q) (hp : p.WellFormed story)
    (hat : p.StandsAt story (.finish name target arguments))
    (hroot : Frames.currentRoot? p.frames = some (root, below)) (hc : root.continuation = some c) :
    ∃ root' before after, p.Ends story q target root' before after ∧ root.Revalued root' ∧
      Revalued below before ∧
      Frames.writeBack story root'.scope c.refs before = (.ok (), after) := by
  rcases Frames.currentRoot?_suffix hroot with ⟨his, hsuffix⟩
  have hstack := hp.stacked.suffix hsuffix
  cases h with
  | leaveScript hroot' hsettle =>
      rcases Prod.mk.inj (Option.some.inj (hroot.symm.trans hroot')) with ⟨rfl, rfl⟩
      rcases back_of_settle hstack his hc hsettle with ⟨lower, under, hback, hq⟩
      exact ⟨root, below, _, Player.Ends.back hroot hq, Frame.Revalued.refl root,
        Revalued.refl below, hback⟩
  | transferAtBottom _ _ hvalues _ hroot' hnone =>
      -- The script has a caller, also after the arguments.
      have heval := (Act.evaluates_transferArguments story _ _ _ _ _).ok hvalues
      rcases heval.frames.currentRoot? hroot with ⟨g, lower, hg, hhead, -⟩
      rcases Prod.mk.inj (Option.some.inj (hg.symm.trans hroot')) with ⟨rfl, rfl⟩
      rw [hhead.same] at hnone
      cases hc.symm.trans hnone
  | @transfer _ _ _ _ _ _ c' r root' below' after _ hcallee _ hvalues _ hroot' hc' hover =>
      have heval := (Act.evaluates_transferArguments story _ _ _ _ _).ok hvalues
      rcases heval.frames.currentRoot? hroot with ⟨g, lower, hg, hhead, hlower⟩
      rcases Prod.mk.inj (Option.some.inj (hg.symm.trans hroot')) with ⟨rfl, rfl⟩
      rw [hhead.same] at hc'
      obtain rfl : c = c' := Option.some.inj (hc.symm.trans hc')
      -- The caller is still there, so the references are handed over.
      have hhas : Frames.has lower c.frame = true := by
        rcases hstack.below_of_continuation hc with ⟨x, others, rfl⟩
        cases hlower with
        | @cons _ y _ _ hxy _ =>
            have hy : y.id = c.frame := hxy.id.trans (hstack.caller hc).1.symm
            simp [Frames.has, hy]
      rw [Frames.HandedOver, if_pos hhas] at hover
      exact ⟨g, lower, after, Player.Ends.replaced hat hcallee hvalues hroot' rfl, hhead, hlower,
        hover⟩

/-- A step that ends a script below which the frames of its call rest writes its references back to
them. -/
theorem ends_of_running {id : UInt64} {c : Continuation} {rest : List Frame}
    {onward : Option String} (hp : p.WellFormed story) (hrests : p.Rests id c rest)
    (hscript : (Frames.currentRoot? p.frames).map (fun found => found.1.id) = some id)
    (hending : p.ending? story = some onward) (hstep : p.dispatch story = (.running, q)) :
    ∃ root before after, p.Ends story q onward root before after ∧ root.id = id ∧
      Revalued rest before ∧
      Frames.writeBack story root.scope c.refs before = (.ok (), after) := by
  rcases Option.map_eq_some_iff.1 hscript with ⟨⟨root, below⟩, hroot, rfl⟩
  rcases Frames.currentRoot?_suffix hroot with ⟨his, hsuffix⟩
  rcases hrests.below root below hsuffix rfl with ⟨-, hc, hbelow⟩
  cases hframes : p.frames with
  | nil =>
      rw [hframes] at hroot
      cases hroot
  | cons f under =>
      rcases hp.stacked.placed f (by simp [hframes]) with ⟨script, group, hgroup, -⟩
      have hplace : f.current? story = group.nodes[f.node]? := nodeAt?_of_group hgroup
      simp only [Player.ending?, hframes, hplace] at hending
      split at hending
      · next hnode =>
        -- The nodes are used up, so the innermost frame is that of the script.
        split at hending
        · next hinner =>
          cases hending
          rw [hframes] at hroot
          simp only [Frames.currentRoot?, hinner, if_true] at hroot
          rcases Prod.mk.inj (Option.some.inj hroot) with ⟨rfl, rfl⟩
          have hfinish := finishFrame_of_running hstep hframes hgroup hnode
          rcases ends_of_finishFrame hp hframes his hc hfinish with ⟨after, hends, hback⟩
          exact ⟨f, under, after, hends, rfl, hbelow, hback⟩
        · cases hending
      · next name target arguments hnode =>
        cases hending
        have hat := standsAt_of_group hframes hgroup hnode
        have hmove := move_of_running hstep hframes hgroup hnode
        rcases hmove.ends hp hat hroot hc with ⟨root', before, after, hends, hhead, hbefore, hback⟩
        exact ⟨root', before, after, hends, hhead.id, hbelow.trans hbefore, hback⟩
      · cases hending

/-! ## From the call to the return -/

/-- The last values of references are handed back.  `atCall` are the frames of the caller when the
script was called. -/
structure Frames.HandedBack (story : Story) (scope : Dict Value) (refs : Dict String)
    (atCall before after : List Frame) : Prop where
  /-- Names still mean variables of the same frames as at the call. -/
  owners : ∀ name, owner? before name = owner? atCall name
  /-- The values are put one after the other where the paths led to at the call. -/
  returned : Returned scope (owner? atCall) refs before after
  /-- A path that is apart from the paths of the other references leads to the last value of its
  parameter. -/
  read : ∀ name text, (name, text) ∈ refs → ∃ value path,
    Dict.get? scope name = some value ∧ Path.parse text = .ok path ∧
      ((∀ binding ∈ refs, binding.1 ≠ name → ∀ other, Path.parse binding.2 = .ok other →
        path.Apart other) → readPath story after text = .ok value)
  /-- All other variables keep their values. -/
  spared : Spared (fun id name => ∃ binding ∈ refs, ∃ path, Path.parse binding.2 = .ok path ∧
    path.root = name ∧ owner? atCall name = some id) before after

/-- When values are handed over, each path gets the last value of its parameter, in order of the
parameters. -/
theorem Frames.handedBack_of_writeBack {scope : Dict Value} {refs : Dict String}
    {atCall before after : List Frame} (hrefs : Dict.Sorted refs) (hrest : Revalued atCall before)
    (h : writeBack story scope refs before = (.ok (), after)) :
    HandedBack story scope refs atCall before after := by
  have hreturned := returned_of_writeBack (fun name => hrest.owner? name) h
  refine ⟨hrest.owner?, hreturned, fun name text hbinding => ?_, hreturned.spared⟩
  rcases hreturned.bound hbinding with ⟨value, path, id, hvalue, hpath, -⟩
  refine ⟨value, path, hvalue, hpath, fun hapart => ?_⟩
  exact hreturned.readPath (Dict.nodup_keys hrefs) hbinding hvalue hpath hapart

/-- A script that is called with references starts with the values that their paths lead to.  When
it ends later in the run, its last values are handed back to the same variables, and if no other
script takes its place, its caller goes on behind the call. -/
theorem lent_returned {f : Frame} {below : List Frame} {target : String} {callee : Script}
    {arguments : List Argument} (hcall : p.Calls story q f below target callee arguments) :
    (∃ entry under, p.Lends story q f target callee arguments entry under) ∧
    ∀ {started last : Started} {past run : List (Started × Player)} {s t : Player}
      {onward : Option String},
      story.Run ((last, s) :: run) → (started, q) :: past <:+ (last, s) :: run →
      (Frames.currentRoot? s.frames).map (fun found => found.1.id) = some p.counter →
      s.ending? story = some onward → s.dispatch story = (.running, t) →
      ∃ root before after, s.Ends story t onward root before after ∧ root.id = p.counter ∧
        Frames.HandedBack story root.scope (Dict.ofList (Act.lent callee.params arguments))
          p.frames before after ∧
        (onward = none → Revalued (f.advanced :: below) t.frames) := by
  refine ⟨hcall.lends, ?_⟩
  intro started last past run s t onward hrun hcalled hscript hending hstep
  rcases hcall.lends with ⟨entry, under, hlends⟩
  rcases hrun.registered _ (hcalled.subset List.mem_cons_self) with ⟨hq, -⟩
  rcases hrun.registered _ List.mem_cons_self with ⟨hs, -⟩
  have hrests := hrun.rests hcalled rfl (hlends.rests hq)
  rcases ends_of_running hs hrests hscript hending hstep with
    ⟨root, before, after, hends, hid, hrest, hback⟩
  have hhanded := Frames.handedBack_of_writeBack (Dict.sorted_ofList _) hrest hback
  refine ⟨root, before, after, hends, hid, hhanded, ?_⟩
  rintro rfl
  -- The frames after the write-back are those of the call up to values, and the caller moves on.
  cases hends with
  | @back _ lower _ others _ ht =>
      have hwritten := Frames.revalued_writeBack story root.scope
        (Dict.ofList (Act.lent callee.params arguments)) before
      rw [hback] at hwritten
      have hafter := hrest.trans hwritten
      rw [hcall.frames] at hafter
      rcases List.forall₂_cons.1 hafter with ⟨hhead, htail⟩
      rw [ht]
      exact List.Forall₂.cons hhead.advanced htail

/-- A variable and a field of another one are passed by reference, and the script that is called
returns from a branch. -/
def loanTale : Story :=
  .ofScripts [
    ("helper", .ofGroups "helper"
      [⟨"p", .primitive .string, true⟩, ⟨"q", .primitive .string, true⟩] [
      ("helper", [.code "c" "p = p + \"er\"; q = \"old\";", .branch "b" "true" "helper.b" none]),
      ("helper.b", [.finish "r" none []])]),
    ("main", .ofGroups "main" [] [
      ("main", [.declare "v" ⟨"x", .primitive .string, some "\"new\""⟩,
        .declare "w" ⟨"m", .object "Book" [("title", .primitive .string)], none⟩,
        .call "k" "helper" [⟨"x", true⟩, ⟨"m.title", true⟩], .text "t" "${x}" false])])]

def Story.stepped (story : Story) : Nat → Player
  | 0 => story.opening
  | n + 1 => ((story.stepped n).dispatch story).2

def Player.textAt? (story : Story) (p : Player) (path : String) : Option String :=
  (Frames.readPath story p.frames path).toOption.bind Value.asText?

/-- The script of this story starts with both values, and both have been handed back when its caller
goes on. -/
theorem lent_returned_loanTale :
    ∃ f below callee arguments started last past run,
      (loanTale.stepped 2).Calls loanTale (loanTale.stepped 3) f below "helper" callee arguments ∧
      loanTale.Run ((last, loanTale.stepped 5) :: run) ∧
      (started, loanTale.stepped 3) :: past <:+ (last, loanTale.stepped 5) :: run ∧
      (["p", "q"].map ((loanTale.stepped 3).textAt? loanTale),
          ["x", "m.title"].map ((loanTale.stepped 6).textAt? loanTale)) =
        ([some "new", some ""], [some "newer", some "old"]) ∧
      (∃ entry under, (loanTale.stepped 2).Lends loanTale (loanTale.stepped 3) f "helper" callee
        arguments entry under) ∧
      ∃ root before after,
        (loanTale.stepped 5).Ends loanTale (loanTale.stepped 6) none root before after ∧
          root.id = (loanTale.stepped 2).counter ∧
          Frames.HandedBack loanTale root.scope (Dict.ofList (Act.lent callee.params arguments))
            (loanTale.stepped 2).frames before after ∧
          Revalued (f.advanced :: below) (loanTale.stepped 6).frames := by
  have hsteps : ∀ n, (loanTale.stepped n).dispatch loanTale =
      (((loanTale.stepped n).dispatch loanTale).1, loanTale.stepped (n + 1)) := fun _ => rfl
  have hruns : ∀ n, ((loanTale.stepped n).dispatch loanTale).1 = .running →
      (loanTale.stepped n).dispatch loanTale = (.running, loanTale.stepped (n + 1)) := by
    intro n hrunning
    rw [hsteps n, hrunning]
  have hstart : Player.begin loanTale "main" [] = .ok (loanTale.stepped 0) := rfl
  have hfirst := (Story.Run.start hstart).step rfl (hsteps 0) (by decide +kernel)
  have hsecond := hfirst.step (by decide +kernel) (hsteps 1) (by decide +kernel)
  have hcalled := hsecond.step (by decide +kernel) (hsteps 2) (by decide +kernel)
  have hassigned := hcalled.step (by decide +kernel) (hsteps 3) (by decide +kernel)
  have hentered := hassigned.step (by decide +kernel) (hsteps 4) (by decide +kernel)
  have hcall : (loanTale.stepped 2).Calls loanTale (loanTale.stepped 3) _ _ "helper" _ _ :=
    ⟨rfl, ⟨_, _, rfl, rfl, rfl⟩, rfl, hruns 2 (by decide +kernel)⟩
  have hscript : ((Frames.currentRoot? (loanTale.stepped 5).frames).map fun found => found.1.id) =
      some (loanTale.stepped 2).counter := by decide +kernel
  have hending : (loanTale.stepped 5).ending? loanTale = some none := by decide +kernel
  have hreturn := hruns 5 (by decide +kernel)
  rcases lent_returned hcall with ⟨hlends, hreturned⟩
  rcases hreturned hentered ⟨[_, _], rfl⟩ hscript hending hreturn with
    ⟨root, before, after, hends, hid, hhanded, honward⟩
  exact ⟨_, _, _, _, _, _, _, _, hcall, hentered, ⟨[_, _], rfl⟩, by decide +kernel, hlends, root,
    before, after, hends, hid, hhanded, honward rfl⟩

end StoryPlayer
