import StoryPlayer.Proofs.CallStack
import StoryPlayer.Proofs.Freezing

/-!
# Chains of tail calls

A script that is called may itself end with a call, or hand over to another script, any number of
times.  As long as scripts call others only as the last thing they do, no more than two scripts run
at a time: the one that is played from the start and the last one of the chain.

- `Player.callsLast` says that a call is the last thing its script has to do, unless the script is
  the one played from the start,
- `Frames.Chained` is what the scripts that run then look like, and `Rescripted.chained` shows that
  every step keeps it,
- `Chain` are runs that end in a chain, with the call that it has begun with,
- `tail_calls_bounded` bounds the number of scripts, and shows that the last script of a chain
  returns behind the call at its beginning.
-/

namespace StoryPlayer

open Frames (scripts Revalued)

/-! ## Calls -/

/-- If the innermost frame stands at a call, it is the frame of a script, and either the lowest one
or at the last node of its group. -/
def Player.callsLast (story : Story) (p : Player) : Bool :=
  match p.frames with
  | [] => true
  | f :: below =>
    match f.current? story with
    | some (.call ..) => f.root && (below.isEmpty || (f.advanced.current? story).isNone)
    | _ => true

/-- If the lowest frame is alone and stands at a call, the call passes nothing by reference. -/
def Player.passesValues (story : Story) (p : Player) : Bool :=
  match p.frames with
  | [f] =>
    match f.current? story with
    | some (.call _ _ arguments) => arguments.all fun argument => !argument.byRef
    | _ => true
  | _ => true

/-- The next step ends the innermost script: its nodes are used up, or it returns. -/
def Player.endsScript (story : Story) (p : Player) : Bool :=
  match p.frames with
  | [] => false
  | f :: _ =>
    match f.current? story with
    | none => f.root
    | some (.finish _ none _) => true
    | some _ => false

/-! ## The scripts of a chain -/

/-- At most one script runs above the one that is played from the start, to which it returns.  If the
calls at the bottom are `clear` of references, it hands nothing over. -/
inductive Frames.Chained (clear : Prop) : List (UInt64 × Option Continuation) → Prop
  | empty : Chained clear []
  | alone (id : UInt64) : Chained clear [(id, none)]
  | called {id : UInt64} {c : Continuation} :
      (clear → c.refs = []) → Chained clear [(id, some c), (c.frame, none)]

namespace Frames.Chained

variable {clear : Prop} {rs rest : List (UInt64 × Option Continuation)}

/-- At most two scripts run. -/
theorem length_le (h : Chained clear rs) : rs.length ≤ 2 := by
  cases h with
  | empty => exact Nat.zero_le 2
  | alone _ => exact Nat.le_succ 1
  | called _ => exact Nat.le_refl 2

/-- Scripts may leave. -/
theorem suffix (h : Chained clear rs) (hrest : rest <:+ rs) : Chained clear rest := by
  have hone : ∀ {id : UInt64}, rest <:+ [(id, none)] → Chained clear rest := by
    intro id hid
    rcases List.suffix_cons_iff.1 hid with rfl | hnil
    · exact Chained.alone id
    · rcases List.suffix_nil.1 hnil with rfl
      exact Chained.empty
  cases h with
  | empty =>
      rcases List.suffix_nil.1 hrest with rfl
      exact Chained.empty
  | alone id => exact hone hrest
  | called hclear =>
      rcases List.suffix_cons_iff.1 hrest with rfl | hbelow
      · exact Chained.called hclear
      · exact hone hbelow

/-- Another script may take the place of the innermost one and return where that one would have. -/
theorem replaced {id id' : UInt64} {c c' : Option Continuation} (h : Chained clear ((id, c) :: rest))
    (hc : c' = c ∨ c' = c.map Continuation.bare) : Chained clear ((id', c') :: rest) := by
  cases h with
  | alone _ =>
      obtain rfl : c' = none := by simpa using hc
      exact Chained.alone id'
  | @called _ c hclear =>
      rcases hc with rfl | rfl
      · exact Chained.called hclear
      · exact Chained.called (c := c.bare) fun _ => rfl

end Frames.Chained

variable {story : Story} {p q : Player} {run : List (Started × Player)} {clear : Prop}

/-- A call that is made under these conditions is made by the lowest frame alone. -/
theorem alone_of_call {f : Frame} {below : List Frame} {found : String × Group}
    {id target : String} {arguments : List Argument}
    (hp : Frames.Stacked story p.counter p.frames) (hcalls : p.callsLast story = true)
    (hframes : p.frames = f :: below) (hgroup : story.group f.group = .ok found)
    (hnode : found.2.nodes[f.node]? = some (.call id target arguments))
    (htail : Act.isTailCall f found.2.nodes.length = false) :
    below = [] ∧ f.root = true ∧ f.continuation = none := by
  have hcall : f.current? story = some (.call id target arguments) :=
    (nodeAt?_of_group hgroup).trans hnode
  obtain ⟨hroot, hlast⟩ : f.root = true ∧ (below = [] ∨ f.advanced.current? story = none) := by
    simpa [Player.callsLast, hframes, hcall] using hcalls
  rw [hframes] at hp
  cases hc : f.continuation with
  | none => exact ⟨hp.nil_of_no_continuation hroot hc, hroot, rfl⟩
  | some c =>
      -- A script that has been called would be replaced.
      rcases hp.below_of_continuation hc with ⟨lower, under, rfl⟩
      have hnext : found.2.nodes[f.node + 1]? = none := by
        have hnone : f.advanced.current? story = none := by simpa using hlast
        rw [← hnone]
        exact (nodeAt?_of_group hgroup).symm
      have hend : f.node + 1 = found.2.nodes.length := by
        have hlt := (List.getElem?_eq_some_iff.1 hnode).1
        have hle := List.getElem?_eq_none_iff.1 hnext
        omega
      have his : Act.isTailCall f found.2.nodes.length = true :=
        isTailCall_eq_true.2 ⟨hroot, ⟨c, hc⟩, hend⟩
      simp [his] at htail

/-- A step keeps the chain if calls come last and pass no references where they must not. -/
theorem Rescripted.chained (h : Rescripted story p q)
    (hstack : Frames.Stacked story p.counter p.frames) (hcalls : p.callsLast story = true)
    (hclear : clear → p.passesValues story = true) (hp : Frames.Chained clear (scripts p.frames)) :
    Frames.Chained clear (scripts q.frames) := by
  cases h with
  | dropped hsuffix => exact hp.suffix hsuffix
  | @called f g lower below under found id target arguments refs hframes hgroup hnode htail hq
      hrevalued hroot hc hrefs =>
      rcases alone_of_call hstack hcalls hframes hgroup hnode htail with ⟨rfl, hisRoot, hnone⟩
      rw [hq, Frames.scripts_of_root hroot, hc, hrevalued.scripts, Frames.scripts_of_root hisRoot,
        hnone]
      refine Frames.Chained.called (c := ⟨f.id, f.node + 1, refs⟩) fun his => hrefs ?_
      have hcall : f.current? story = some (.call id target arguments) :=
        (nodeAt?_of_group hgroup).trans hnode
      simpa [Player.passesValues, hframes, hcall] using hclear his
  | replaced hscripts hscripts' hc =>
      rw [hscripts] at hp
      rw [hscripts']
      exact hp.replaced hc

/-! ## Runs -/

/-- What is left of a run when its latest states are taken away is a run. -/
theorem Story.Run.of_suffix {s : Started × Player} {past : List (Started × Player)}
    (h : story.Run run) (hpast : s :: past <:+ run) : story.Run (s :: past) := by
  induction h with
  | start hbegin =>
      rcases List.suffix_cons_iff.1 hpast with heq | hnil
      · rw [heq]
        exact Story.Run.start hbegin
      · simp at hnil
  | step hrun hpending hdispatch hcounter ih =>
      rcases List.suffix_cons_iff.1 hpast with heq | hearlier
      · rw [heq]
        exact hrun.step hpending hdispatch hcounter
      · exact ih hearlier
  | answer hrun hanswer hcounter ih =>
      rcases List.suffix_cons_iff.1 hpast with heq | hearlier
      · rw [heq]
        exact hrun.answer hanswer hcounter
      · exact ih hearlier

/-- What becomes of the scripts from one state of a run to the next. -/
theorem Story.Run.rescripted (h : story.Run run) :
    run.IsChain fun later earlier => Rescripted story earlier.2 later.2 := by
  induction h with
  | start _ => exact List.IsChain.singleton _
  | step hrun _ hdispatch _ ih =>
      rcases hrun.registered _ List.mem_cons_self with ⟨hwf, -⟩
      exact List.isChain_cons_cons.2 ⟨(step_of_dispatch hdispatch).rescripted hwf.stacked, ih⟩
  | answer hrun hanswer _ ih =>
      rcases hrun.registered _ List.mem_cons_self with ⟨hwf, -⟩
      exact List.isChain_cons_cons.2 ⟨hanswer.rescripted hwf, ih⟩

/-- By induction on the run. -/
theorem Story.Run.chained {s : Started × Player} {past : List (Started × Player)}
    (h : story.Run (s :: past)) (hcalls : ∀ s ∈ past, s.2.callsLast story = true)
    (hclear : clear → ∀ s ∈ past, s.2.passesValues story = true) :
    Frames.Chained clear (Frames.scripts s.2.frames) := by
  -- By induction on the states before the last one; every step and every answer keeps the shape.
  induction past generalizing s with
  | nil =>
      cases h with
      | start hbegin =>
          rcases begin_eq_ok hbegin with ⟨callee, root, locals, -, -, -, rfl⟩
          exact Frames.Chained.alone Player.firstFrame
  | cons earlier before ih =>
      have hbefore := h.of_suffix (List.suffix_cons s _)
      rcases hbefore.registered _ List.mem_cons_self with ⟨hwf, -⟩
      have hrescripted := (List.isChain_cons_cons.1 h.rescripted).1
      refine hrescripted.chained hwf.stacked (hcalls _ List.mem_cons_self)
        (fun his => hclear his _ List.mem_cons_self) (ih hbefore ?_ ?_)
      · exact fun s hs => hcalls s (List.mem_cons_of_mem _ hs)
      · exact fun his s hs => hclear his s (List.mem_cons_of_mem _ hs)

theorem Story.Run.countP_le {s : Started × Player} {past : List (Started × Player)}
    (h : story.Run (s :: past)) (hcalls : ∀ s ∈ past, s.2.callsLast story = true) :
    s.2.frames.countP Frame.root ≤ 2 := by
  have hchained : Frames.Chained False (Frames.scripts s.2.frames) := h.chained hcalls False.elim
  rw [← Frames.length_scripts]
  exact hchained.length_le

/-- The run ends in a chain of scripts that has begun when the frame `b`, which was alone, stood at a
call.  Since then two scripts have been running. -/
inductive Chain (story : Story) (b : Frame) : List (Started × Player) → Prop
  | began {s first : Started × Player} {past : List (Started × Player)} {found : String × Group}
      {id target : String} {arguments : List Argument} :
      first.2.frames = [b] → story.group b.group = .ok found →
      found.2.nodes[b.node]? = some (.call id target arguments) →
      s.2.frames.countP Frame.root = 2 → Chain story b (s :: first :: past)
  | longer {s : Started × Player} {past : List (Started × Player)} :
      s.2.frames.countP Frame.root = 2 → Chain story b past → Chain story b (s :: past)

/-- As long as two scripts run, the lowest frame stands at the call with which the chain has begun. -/
theorem Story.Run.chain {s : Started × Player} {past : List (Started × Player)}
    (h : story.Run (s :: past)) (hcalls : ∀ s ∈ past, s.2.callsLast story = true)
    (htwo : s.2.frames.countP Frame.root = 2) :
    ∃ b, Chain story b (s :: past) ∧ Revalued [b] (s.2.frames.rtake 1) := by
  induction past generalizing s with
  | nil =>
      cases h with
      | start hbegin =>
          rcases begin_eq_ok hbegin with ⟨callee, root, locals, -, -, -, rfl⟩
          cases htwo
  | cons earlier before ih =>
      have hbefore := h.of_suffix (List.suffix_cons s _)
      have hcalls' : ∀ s ∈ before, s.2.callsLast story = true :=
        fun s hs => hcalls s (List.mem_cons_of_mem _ hs)
      rcases hbefore.registered _ List.mem_cons_self with ⟨hwf, -⟩
      have hmost : earlier.2.frames.countP Frame.root ≤ 2 := hbefore.countP_le hcalls'
      -- If two scripts were running before, the chain goes on and the lowest frame rests.
      have hlonger : 2 ≤ earlier.2.frames.countP Frame.root →
          ∃ b, Chain story b (s :: earlier :: before) ∧ Revalued [b] (s.2.frames.rtake 1) := by
        intro hleast
        rcases ih hbefore hcalls' (Nat.le_antisymm hmost hleast) with ⟨b, hchain, hlowest⟩
        have hdeep : ∀ {frames : List Frame}, 2 ≤ frames.countP Frame.root → 1 < frames.length :=
          fun hcount => Nat.lt_of_lt_of_le hcount List.countP_le_length
        have hrests := (List.isChain_cons_cons.1 h.sameBelow).1.lowest (hdeep hleast)
          (hdeep htwo.ge)
        exact ⟨b, Chain.longer htwo hchain, hlowest.trans hrests⟩
      cases (List.isChain_cons_cons.1 h.rescripted).1 with
      | dropped hsuffix =>
          apply hlonger
          rw [← htwo, ← Frames.length_scripts, ← Frames.length_scripts]
          exact hsuffix.length_le
      | @called f g lower below under _ _ _ _ _ hframes hgroup hnode htail hq hrevalued _ _ _ =>
          rcases alone_of_call hwf.stacked (hcalls _ List.mem_cons_self) hframes hgroup hnode htail
            with ⟨rfl, -, -⟩
          obtain rfl : under = [] := List.forall₂_nil_left_iff.1 (List.forall₂_cons.1 hrevalued).2
          refine ⟨f, Chain.began hframes hgroup hnode htwo, ?_⟩
          rw [hq]
          exact hrevalued
      | replaced hscripts hscripts' _ =>
          apply hlonger
          rw [← htwo, ← Frames.length_scripts, ← Frames.length_scripts, hscripts, hscripts']
          exact Nat.le_refl _

/-! ## The end of a chain -/

/-- The frame below the last script of a chain is the lowest one. -/
theorem alone_of_scripts {counter : UInt64} {root : Frame} {below : List Frame} {c : Continuation}
    (h : Frames.Stacked story counter (root :: below)) (hc : root.continuation = some c)
    (hbelow : scripts below = [(c.frame, none)]) :
    ∃ lower, below = [lower] ∧ c.frame = lower.id ∧ c.node = lower.node + 1 := by
  rcases h.below_of_continuation hc with ⟨lower, under, rfl⟩
  rcases h.caller hc with ⟨hid, hnode, -⟩
  rcases List.eq_nil_or_concat' under with rfl | ⟨middle, bottom, rfl⟩
  · exact ⟨lower, rfl, hid, hnode⟩
  · -- The lowest frame is one of a script, so it has the number to which the script returns.
    have hlast : (root :: lower :: (middle ++ [bottom])).getLast? = some bottom :=
      List.getLast?_concat (l := root :: lower :: middle)
    have hroot : bottom.root = true := (h.bottom bottom hlast).1
    have hmem : (bottom.id, bottom.continuation) ∈ scripts (lower :: (middle ++ [bottom])) :=
      List.mem_map_of_mem (List.mem_filter.2 ⟨by simp, hroot⟩)
    rw [hbelow, List.mem_singleton] at hmem
    have hlt : bottom.id < lower.id :=
      (List.pairwise_cons.1 h.tail.increasing).1 bottom (by simp)
    rw [← hid, (Prod.mk.inj hmem).1] at hlt
    exact absurd hlt (UInt64.lt_irrefl _)

/-- A script that hands nothing over returns to a frame that is there. -/
theorem settle_bare {scope : Dict Value} {c : Continuation} {lower : Frame}
    (hrefs : c.refs = []) (hid : c.frame = lower.id) (hnode : c.node = lower.node + 1)
    (hp : p.frames = [lower]) :
    Player.settle story scope (some c) p = (.ok (), { p with frames := [lower.advanced] }) := by
  simp [Player.settle, Frames.has, hid, hnode, hrefs, hp, Frames.writeBack, Frames.moveTo,
    Frame.advanced]

/-- A plain return succeeds if the way back does. -/
theorem runNode_finish {script group id : String} {index : Nat} {arguments : List Argument}
    {root : Frame} {below : List Frame}
    (hroot : Frames.currentRoot? p.frames = some (root, below))
    (hsettle : Player.settle story root.scope root.continuation { p with frames := below } =
      (.ok (), q)) :
    Act.runNode story script group index (.finish id none arguments) p = .ok (none, q) := by
  have hcurrent : Act.currentRoot p = .ok ((root, below), p) :=
    Act.currentRoot_eq_ok.2 ⟨hroot, rfl⟩
  have hleave : Act.leaveScript story p = .ok ((), q) := by
    refine Act.bind_eq_ok.2 ⟨(root, below), p, hcurrent, ?_⟩
    refine Act.bind_eq_ok.2 ⟨(), { p with frames := below }, rfl, ?_⟩
    simp only [Act.settle, hsettle]
  exact Act.bind_eq_ok.2 ⟨(), q, hleave, rfl⟩

/-- The last script of a chain that hands nothing over has the lowest frame below it, and can return
there. -/
theorem return_of_scripts {id : UInt64} {c : Continuation}
    (hp : Frames.Stacked story p.counter p.frames)
    (hscripts : scripts p.frames = [(id, some c), (c.frame, none)]) (hrefs : c.refs = []) :
    ∃ root lower, Frames.currentRoot? p.frames = some (root, [lower]) ∧
      Player.settle story root.scope root.continuation { p with frames := [lower] } =
        (.ok (), { p with frames := [lower.advanced] }) := by
  cases hroot : Frames.currentRoot? p.frames with
  | none => simp [Frames.scripts_of_currentRoot?_none hroot] at hscripts
  | some found =>
      rcases found with ⟨root, below⟩
      rw [Frames.scripts_of_currentRoot? hroot] at hscripts
      rcases List.cons.inj hscripts with ⟨hfirst, hbelow⟩
      have hc : root.continuation = some c := (Prod.mk.inj hfirst).2
      have hstack := hp.suffix (Frames.currentRoot?_suffix hroot).2
      rcases alone_of_scripts hstack hc hbelow with ⟨lower, rfl, hid, hat⟩
      refine ⟨root, lower, rfl, ?_⟩
      rw [hc]
      exact settle_bare hrefs hid hat rfl

/-- The last script of a chain that hands nothing over returns to the lowest frame. -/
theorem dispatch_of_endsScript {id : UInt64} {c : Continuation} (hends : p.endsScript story = true)
    (hp : Frames.Stacked story p.counter p.frames)
    (hscripts : scripts p.frames = [(id, some c), (c.frame, none)]) (hrefs : c.refs = []) :
    ∃ lower, [lower] <:+ p.frames ∧
      p.dispatch story = (.running, { p with frames := [lower.advanced] }) := by
  rcases return_of_scripts hp hscripts hrefs with ⟨root, lower, hroot, hsettle⟩
  have hsuffix := (Frames.currentRoot?_suffix hroot).2
  refine ⟨lower, (List.suffix_cons root _).trans hsuffix, ?_⟩
  -- The step looks at the innermost frame, which is that of the script or one of its groups.
  cases hframes : p.frames with
  | nil =>
      rw [hframes] at hroot
      cases hroot
  | cons f below =>
      rcases hp.placed f (by simp [hframes]) with ⟨script, group, hgroup, -⟩
      have hplace : f.current? story = group.nodes[f.node]? := nodeAt?_of_group hgroup
      simp only [Player.endsScript, hframes, hplace] at hends
      split at hends
      · next hnode =>
        -- The nodes are used up, so the frame is that of the script.
        simp only [hframes, Frames.currentRoot?, hends, if_true] at hroot
        rcases Prod.mk.inj (Option.some.inj hroot) with ⟨rfl, rfl⟩
        rw [hframes] at hp
        have hfinish := finishFrame_top hp hframes
        rw [if_pos hends, hsettle] at hfinish
        simp only [Player.dispatch, hframes, hgroup, hnode, hfinish]
      · next name arguments hnode =>
        have hrun : Act.runNode story script f.group f.node (.finish name none arguments) p =
            .ok (none, { p with frames := [lower.advanced] }) := runNode_finish hroot hsettle
        simp only [Player.dispatch, hframes, hgroup, hnode, hrun]
      · cases hends

/-- If scripts only call others as the last thing they do, at most two scripts run at a time.  If
moreover nothing is passed by reference at the bottom, the last script of a chain of calls does not
fail to return, and the lowest frame, which is the innermost one again, goes on behind the call with
which the chain has begun. -/
theorem tail_calls_bounded (h : story.Run run)
    (hcalls : ∀ s ∈ run.tail, s.2.callsLast story = true) :
    (∀ s ∈ run, s.2.frames.countP Frame.root ≤ 2) ∧
    ((∀ s ∈ run.tail, s.2.passesValues story = true) →
      ∀ s past, s :: past <:+ run → s.2.frames.countP Frame.root = 2 → s.2.endsScript story = true →
        ∃ b b' q, Chain story b (s :: past) ∧ s.2.dispatch story = (.running, q) ∧
          q.frames = [b'] ∧ b.advanced.Revalued b') := by
  have hpast : ∀ {s : Started × Player} {past : List (Started × Player)}, s :: past <:+ run →
      ∀ s ∈ past, s ∈ run.tail := by
    rintro s past ⟨later, rfl⟩ s hs
    cases later with
    | nil => exact hs
    | cons first rest => exact List.mem_append_right rest (List.mem_cons_of_mem _ hs)
  constructor
  · intro s hs
    rcases List.append_of_mem hs with ⟨later, past, hrun⟩
    have hsuffix : s :: past <:+ run := ⟨later, hrun.symm⟩
    exact (h.of_suffix hsuffix).countP_le fun s hs => hcalls s (hpast hsuffix s hs)
  · intro hvalues s past hsuffix htwo hends
    have hrun := h.of_suffix hsuffix
    have hcalls' : ∀ s ∈ past, s.2.callsLast story = true :=
      fun s hs => hcalls s (hpast hsuffix s hs)
    have hchained : Frames.Chained True (scripts s.2.frames) :=
      hrun.chained hcalls' fun _ s hs => hvalues s (hpast hsuffix s hs)
    rcases hrun.chain hcalls' htwo with ⟨b, hchain, hlowest⟩
    rcases hrun.registered _ List.mem_cons_self with ⟨hwf, -⟩
    rw [← Frames.length_scripts] at htwo
    -- Of two scripts the upper one was called by the lower one, without references.
    generalize hscripts : scripts s.2.frames = rs at htwo hchained
    cases hchained with
    | empty => cases htwo
    | alone _ => cases htwo
    | called hrefs =>
        rcases dispatch_of_endsScript hends hwf.stacked hscripts (hrefs trivial) with
          ⟨lower, hlower, hdispatch⟩
        have hsame : s.2.frames.rtake 1 = [lower] := Frames.rtake_of_suffix hlower (Nat.le_refl 1)
        rw [hsame] at hlowest
        have hb : b.Revalued lower := (List.forall₂_cons.1 hlowest).1
        exact ⟨b, lower.advanced, _, hchain, hdispatch, rfl, hb.advanced⟩

/-- A script is called, calls another one as the last thing it does, and that one hands over to a
third one. -/
def relayTale : Story :=
  .ofScripts [
    ("first", .ofGroups "first" [] [
      ("first", [.text "a" "first" false, .call "k" "second" []])]),
    ("main", .ofGroups "main" [] [("main", [.call "k" "first" [], .text "t" "done" false])]),
    ("second", .ofGroups "second" [] [("second", [.finish "r" (some "third") []])]),
    ("third", .ofGroups "third" [] [("third", [.text "b" "third" false])])]

/-- The third script of this story returns to the first call. -/
theorem tail_calls_bounded_relayTale :
    ∃ s past, relayTale.Run (s :: past) ∧
      (∀ r ∈ past, r.2.callsLast relayTale = true ∧ r.2.passesValues relayTale = true) ∧
      s.2.frames.map (fun f => (f.group, f.node)) = [("third", 1), ("main", 0)] ∧
      (∀ r ∈ s :: past, r.2.frames.countP Frame.root ≤ 2) ∧
      ∃ b b' q, Chain relayTale b (s :: past) ∧ s.2.dispatch relayTale = (.running, q) ∧
        q.frames = [b'] ∧ b.advanced.Revalued b' := by
  have hstart : Player.begin relayTale "main" [] = .ok relayTale.opening := rfl
  have hcalled := (Story.Run.start hstart).step rfl (Prod.eta _).symm (by decide +kernel)
  have hshown := hcalled.step (by decide +kernel) (Prod.eta _).symm (by decide +kernel)
  have hreplaced := hshown.step (by decide +kernel) (Prod.eta _).symm (by decide +kernel)
  have htransferred := hreplaced.step (by decide +kernel) (Prod.eta _).symm (by decide +kernel)
  have hrun := htransferred.step (by decide +kernel) (Prod.eta _).symm (by decide +kernel)
  refine ⟨_, _, hrun, ?conditions, by decide +kernel, ?bounded, ?returns⟩
  case conditions => decide +kernel
  case bounded => exact (tail_calls_bounded hrun (by decide +kernel)).1
  case returns =>
    exact (tail_calls_bounded hrun (by decide +kernel)).2 (by decide +kernel) _ _
      (List.suffix_refl _) (by decide +kernel) (by decide +kernel)

end StoryPlayer
