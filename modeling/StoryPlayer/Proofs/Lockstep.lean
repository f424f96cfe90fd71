import StoryPlayer.Proofs.Alike
import StoryPlayer.Proofs.WellFormed

/-!
# Two runs in lockstep

Two states that differ in the numbers of their frames are played in the same way.

- Actions that look for frames by number agree on stacks of the right shape, where they find the
  innermost frame: `settle_alike`, `transfer_agree`, `choose_agree`,
- `dispatch_alike` puts all nodes together,
- `Player.Twins` are well-formed states that are alike, one of them with smaller numbers;
  `Twins.respond` shows that every request is answered in the same way and leads to twins again,
- `Player.observe` is what a program sees of a run; twins look the same.
-/

namespace StoryPlayer

variable {a b : UInt64} {p q : Player}

/-! ## Scripts that end -/

variable {story : Story} {seed : UInt32}

/-- How frames stand above each other does not depend on the seed. -/
theorem above_reseed {upper lower : Frame} :
    Above (story.reseed seed) upper lower ↔ Above story upper lower := by
  constructor
  · intro h
    cases h with
    | called hroot hc hid hat hcall => exact Above.called hroot hc hid hat hcall
    | looping hroot hc hbody hloop => exact Above.looping hroot hc hbody hloop
    | nested hroot hc hchild hat hnode hin => exact Above.nested hroot hc hchild hat hnode hin
  · intro h
    cases h with
    | called hroot hc hid hat hcall => exact Above.called hroot hc hid hat hcall
    | looping hroot hc hbody hloop => exact Above.looping hroot hc hbody hloop
    | nested hroot hc hchild hat hnode hin => exact Above.nested hroot hc hchild hat hnode hin

/-- Neither does the order of a whole stack. -/
theorem stacked_reseed (seed : UInt32) {counter : UInt64} {frames : List Frame} :
    Frames.Stacked (story.reseed seed) counter frames ↔ Frames.Stacked story counter frames := by
  have hlinked : frames.IsChain (Above (story.reseed seed)) ↔ frames.IsChain (Above story) := by
    rw [show Above (story.reseed seed) = Above story from
      funext fun _ => funext fun _ => propext above_reseed]
  constructor
  · intro h
    exact ⟨h.increasing, h.numbered, h.bottom, hlinked.1 h.linked, h.placed⟩
  · intro h
    exact ⟨h.increasing, h.numbered, h.bottom, hlinked.2 h.linked, h.placed⟩

/-- Nor does going back to a caller. -/
theorem settle_reseed (scope : Dict Value) (c : Option Continuation) (p : Player) :
    p.settle (story.reseed seed) scope c = p.settle story scope c := by
  unfold Player.settle
  simp only [Frames.writeBack_reseed]

/-- The callers of scripts that are alike go on alike. -/
theorem settle_alike {counter counter' : UInt64} {root root' : Frame}
    (hstack : Frames.Stacked story counter (root :: p.frames))
    (hstack' : Frames.Stacked story counter' (root' :: q.frames)) (hroot : root.root = true)
    (hmatch : root.anonymous = root'.anonymous) (hpq : p.Alike a b q) :
    (p.settle story root.scope root.continuation).1 =
        (q.settle (story.reseed seed) root'.scope root'.continuation).1 ∧
      (p.settle story root.scope root.continuation).2.Alike a b
        (q.settle (story.reseed seed) root'.scope root'.continuation).2 := by
  have hmatches := Frame.matches_of_anonymous hmatch
  rw [settle_reseed, hmatches.scope]
  generalize root'.scope = scope
  have hcontinuation := hmatches.continuation
  have hback : ∀ refs, (Frames.writeBack story scope refs p.frames).1 =
      (Frames.writeBack story scope refs q.frames).1 ∧
      (Frames.writeBack story scope refs p.frames).2.map Frame.anonymous =
      (Frames.writeBack story scope refs q.frames).2.map Frame.anonymous := by
    intro refs
    have hp := Frames.writeBack_anonymous story p.frames scope refs
    rw [hpq.frames, Frames.writeBack_anonymous] at hp
    rcases Prod.mk.inj hp with ⟨hresult, hframes⟩
    exact ⟨hresult.symm, hframes.symm⟩
  cases hp : p.settle story scope root.continuation with
  | mk result r =>
      cases hq : q.settle story scope root'.continuation with
      | mk result' s =>
          -- Each of the two ends in one of three ways; as the write-backs agree, it is the same.
          have hsettled := settled_of_settle hstack hroot rfl hp
          have hsettled' := settled_of_settle hstack' (hmatches.root ▸ hroot) rfl hq
          generalize root.continuation = c at hsettled hcontinuation
          generalize root'.continuation = c' at hsettled' hcontinuation
          generalize hbelow : p.frames = below at hsettled
          generalize hbelow' : q.frames = below' at hsettled'
          cases hsettled with
          | concluded =>
              rcases Option.map_eq_none_iff.1 hcontinuation.symm with rfl
              cases hsettled' with
              | concluded =>
                  exact ⟨rfl, rfl, rfl, rfl, hpq.counter, hpq.once, hpq.generator⟩
          | @back c lower lower' under under' hwrite =>
              rcases Option.map_eq_some_iff.1 hcontinuation.symm with ⟨d, rfl, hd⟩
              have hrefs : d.refs = c.refs := (Continuation.mk.inj hd).2.2
              rcases hback c.refs with ⟨hresult, hframes⟩
              rw [hbelow, hwrite] at hresult hframes
              cases hsettled' with
              | back hwrite' =>
                  rw [← hrefs, hbelow', hwrite'] at hframes
                  rcases List.cons.inj hframes with ⟨hhead, htail⟩
                  refine ⟨rfl, similarity_alike.withFrames hpq ?_⟩
                  rw [List.map_cons, List.map_cons, advanced_anonymous hhead, htail]
              | failed hwrite' =>
                  rw [← hrefs, hbelow', hwrite'] at hresult
                  cases hresult
          | @failed c _ frames fault hwrite =>
              rcases Option.map_eq_some_iff.1 hcontinuation.symm with ⟨d, rfl, hd⟩
              have hrefs : d.refs = c.refs := (Continuation.mk.inj hd).2.2
              rcases hback c.refs with ⟨hresult, hframes⟩
              rw [hbelow, hwrite] at hresult hframes
              cases hsettled' with
              | back hwrite' =>
                  rw [← hrefs, hbelow', hwrite'] at hresult
                  cases hresult
              | failed hwrite' =>
                  rw [← hrefs, hbelow', hwrite'] at hresult hframes
                  cases hresult
                  exact ⟨rfl, similarity_alike.withFrames hpq hframes⟩

/-- What is handed over to callers that are alike leaves them alike. -/
theorem handOver_agree {counter counter' : UInt64} {root root' : Frame} {scope : Dict Value}
    {c d : Continuation} (hstack : Frames.Stacked story counter (root :: p.frames))
    (hstack' : Frames.Stacked story counter' (root' :: q.frames))
    (hc : root.continuation = some c) (hd : root'.continuation = some d)
    (hrefs : c.refs = d.refs) (hpq : p.Alike a b q) :
    Agree (Player.Alike a b) Eq (Act.handOver story scope c p)
      (Act.handOver (story.reseed seed) scope d q) := by
  -- The caller is there in both states, under different numbers.
  have hhas : ∀ {f : Frame} {frames : List Frame} {c : Continuation} {counter : UInt64},
      Frames.Stacked story counter (f :: frames) → f.continuation = some c →
      Frames.has frames c.frame = true := by
    intro f frames c counter hstack hc
    rcases hstack.below_of_continuation hc with ⟨lower, under, rfl⟩
    simp [Frames.has, (hstack.caller hc).1]
  refine Agree.afterGet ?_
  have hback := Frames.writeBack_anonymous story p.frames scope c.refs
  rw [hpq.frames, Frames.writeBack_anonymous, hrefs] at hback
  simp only [hhas hstack hc, hhas hstack' hd, if_true, Frames.writeBack_reseed, hrefs]
  cases hp : Frames.writeBack story scope d.refs p.frames with
  | mk result frames =>
      cases hq : Frames.writeBack story scope d.refs q.frames with
      | mk result' frames' =>
          rw [hp, hq] at hback
          rcases Prod.mk.inj hback with ⟨rfl, hframes⟩
          cases result' with
          | ok _ => exact similarity_alike.setFrames hframes.symm p q hpq
          | error fault => exact Agree.error fault

/-- An action that goes back to a caller agrees with another one if the states after it are
alike. -/
theorem settle_agree {scope scope' : Dict Value} {c d : Option Continuation}
    (h : (p.settle story scope c).1 = (q.settle (story.reseed seed) scope' d).1 ∧
      (p.settle story scope c).2.Alike a b (q.settle (story.reseed seed) scope' d).2) :
    Agree (Player.Alike a b) Eq (Act.settle story scope c p)
      (Act.settle (story.reseed seed) scope' d q) := by
  unfold Act.settle
  cases hp : p.settle story scope c with
  | mk result r =>
      cases hq : q.settle (story.reseed seed) scope' d with
      | mk result' s =>
          rw [hp, hq] at h
          rcases h with ⟨rfl, halike⟩
          cases result with
          | ok _ => exact Agree.ok rfl halike
          | error fault => exact Agree.error fault

/-- What follows once the running script has been found; its frames are taken away in both
states. -/
theorem afterRoot_agree {f : Frame × List Frame → Act Unit} {f' : Frame × List Frame → Act Unit}
    (hpq : p.Alike a b q)
    (h : ∀ root below root' below', Frames.currentRoot? p.frames = some (root, below) →
      Frames.currentRoot? q.frames = some (root', below') → root.anonymous = root'.anonymous →
      Player.Alike a b { p with frames := below } { q with frames := below' } →
      Agree (Player.Alike a b) Eq (f (root, below) p) (f' (root', below') q)) :
    Agree (Player.Alike a b) Eq ((Act.currentRoot >>= f) p) ((Act.currentRoot >>= f') q) := by
  refine (Act.agrees_currentRoot p q hpq).bind fun found found' r s hr hs hfound _ => ?_
  rcases Act.currentRoot_eq_ok.1 hr with ⟨hroot, rfl⟩
  rcases Act.currentRoot_eq_ok.1 hs with ⟨hroot', rfl⟩
  exact h _ _ _ _ hroot hroot' hfound.1 (similarity_alike.withFrames hpq hfound.2)

/-- Both states drop the same script; the numbers find the right frames because both stacks are in
order. -/
theorem leaveScript_agree (hp : Frames.Stacked story p.counter p.frames)
    (hq : Frames.Stacked story q.counter q.frames) (hpq : p.Alike a b q) :
    Agree (Player.Alike a b) Eq (Act.leaveScript story p)
      (Act.leaveScript (story.reseed seed) q) := by
  refine afterRoot_agree hpq fun root below root' below' hroot hroot' hmatch hrs => ?_
  rcases Frames.currentRoot?_suffix hroot with ⟨his, hsuffix⟩
  rcases Frames.currentRoot?_suffix hroot' with ⟨-, hsuffix'⟩
  refine Agree.afterSetFrames ?_
  exact settle_agree (settle_alike (hp.suffix hsuffix) (hq.suffix hsuffix') his hmatch hrs)

/-- The script that takes over gets the continuation of the one that goes. -/
theorem transfer_agree (target : String) (arguments : List Argument)
    (hp : Frames.Stacked story p.counter p.frames)
    (hq : Frames.Stacked story q.counter q.frames) (hpq : p.Alike a b q) :
    Agree (Player.Alike a b) Eq (Act.transfer story target arguments p)
      (Act.transfer (story.reseed seed) target arguments q) := by
  refine afterRoot_agree hpq fun _ _ _ _ _ _ _ _ => ?_
  have hscripts : (story.reseed seed).scripts = story.scripts := rfl
  rw [hscripts]
  cases Dict.get? story.scripts target with
  | none => exact Agree.error _
  | some callee =>
      refine Agree.afterLift fun _ _ => ?_
      refine (Act.agrees_transferArguments target _ _ _ _ p q hpq).bind
        fun values _ r s hr hs hvalues hrs => ?_
      subst hvalues
      have heval := (Act.evaluates_transferArguments story _ _ _ _ _).ok hr
      have heval' := (Act.evaluates_transferArguments (story.reseed seed) _ _ _ _ _).ok hs
      have hr' := hp.revalued heval.frames
      have hs' := hq.revalued heval'.frames
      refine Agree.afterLift fun locals _ => ?_
      -- The arguments have been computed; the script is looked for again, as values have changed.
      refine afterRoot_agree hrs fun root below root' below' hroot hroot' hmatch htu => ?_
      rcases Frames.currentRoot?_suffix hroot with ⟨-, hsuffix⟩
      rcases Frames.currentRoot?_suffix hroot' with ⟨-, hsuffix'⟩
      have hmatches : root.Matches root' := Frame.matches_of_anonymous hmatch
      refine Agree.afterSetFrames ?_
      have hcontinuation := hmatches.continuation
      cases hc : root.continuation with
      | none =>
          rw [hc] at hcontinuation
          have hd : root'.continuation = none := Option.map_eq_none_iff.1 hcontinuation.symm
          simp only [hd]
          exact Act.agrees_pushRoot rfl _ _ htu
      | some c =>
          rw [hc] at hcontinuation
          rcases Option.map_eq_some_iff.1 hcontinuation.symm with ⟨d, hd, hcd⟩
          rcases Continuation.mk.inj hcd with ⟨-, hnode, hrefs⟩
          simp only [hd, hmatches.scope]
          refine (handOver_agree (hr'.suffix hsuffix) (hs'.suffix hsuffix') hc hd hrefs.symm
            htu).bind fun _ _ t u _ _ _ htu' => ?_
          refine Act.agrees_pushRoot ?_ t u htu'
          simp [Continuation.anonymous, hnode]

/-- Nodes that are run in states that are alike agree. -/
theorem runNode_agree (seed : UInt32) (script group : String) (index : Nat) (node : Node)
    (hp : Frames.Stacked story p.counter p.frames)
    (hq : Frames.Stacked story q.counter q.frames) (hpq : p.Alike a b q) :
    Agree (Player.Alike a b) Eq (Act.runNode story script group index node p)
      (Act.runNode (story.reseed seed) script group index node q) := by
  -- Most nodes run an action and show nothing.
  have hquiet : ∀ {act act' : Act Unit}, Agree (Player.Alike a b) Eq (act p) (act' q) →
      Agree (Player.Alike a b) (@Eq (Option Output)) ((do act; return none) p)
        ((do act'; return none) q) :=
    fun h => h.bind fun _ _ _ _ _ _ _ hrs => Agree.ok rfl hrs
  cases node with
  | text id value once => exact Act.agrees_showText script id value once p q hpq
  | code id source =>
      refine (similarity_alike.execute source p q hpq).bind fun _ _ r s _ _ _ hrs => ?_
      exact (Act.agrees_advance r s hrs).bind fun _ _ _ _ _ _ _ htu => Agree.ok rfl htu
  | declare id d =>
      refine (similarity_alike.declare d p q hpq).bind fun _ _ r s _ _ _ hrs => ?_
      exact (Act.agrees_advance r s hrs).bind fun _ _ _ _ _ _ _ htu => Agree.ok rfl htu
  | branch id source yes no => exact hquiet (Act.agrees_branch source yes no p q hpq)
  | loop id source body => exact hquiet (Act.agrees_loop source body p q hpq)
  | choice id prompt options => exact Act.agrees_offer script id prompt options p q hpq
  | call id target arguments => exact hquiet (Act.agrees_call target arguments p q hpq)
  | finish id target arguments =>
      cases target with
      | none => exact hquiet (leaveScript_agree hp hq hpq)
      | some target => exact hquiet (transfer_agree target arguments hp hq hpq)
  | leave id =>
      refine (Act.agrees_backToLoop "break" p q hpq).bind fun _ _ r s _ _ _ hrs => ?_
      exact (Act.agrees_advance r s hrs).bind fun _ _ _ _ _ _ _ htu => Agree.ok rfl htu
  | again id => exact hquiet (Act.agrees_backToLoop "continue" p q hpq)
  | unknown => exact Agree.error _

/-! ## Steps and answers -/

/-- The end of a group agrees in states that are alike. -/
theorem finishFrame_alike (seed : UInt32) {f g : Frame} {below under : List Frame}
    (hp : Frames.Stacked story p.counter p.frames)
    (hq : Frames.Stacked story q.counter q.frames) (hpf : p.frames = f :: below)
    (hqg : q.frames = g :: under) (hhead : f.anonymous = g.anonymous)
    (htail : below.map Frame.anonymous = under.map Frame.anonymous) (hpq : p.Alike a b q) :
    (p.finishFrame story f.id).1 = (q.finishFrame (story.reseed seed) g.id).1 ∧
      (p.finishFrame story f.id).2.Alike a b (q.finishFrame (story.reseed seed) g.id).2 := by
  have hq' := (stacked_reseed seed).2 hq
  rw [hpf] at hp
  rw [hqg] at hq hq'
  rw [finishFrame_top hp hpf, finishFrame_top hq' hqg]
  have hmatches := Frame.matches_of_anonymous hhead
  have hbelow := similarity_alike.withFrames hpq htail
  rw [← hmatches.root]
  by_cases hroot : f.root = true
  · rw [if_pos hroot, if_pos hroot]
    exact settle_alike hp hq hroot hhead hbelow
  · rw [if_neg hroot, if_neg hroot]
    exact ⟨rfl, hbelow⟩

/-- Steps from states that are alike lead to the same progress and to states that are alike. -/
theorem dispatch_alike (seed : UInt32) (hp : Frames.Stacked story p.counter p.frames)
    (hq : Frames.Stacked story q.counter q.frames) (hpq : p.Alike a b q) :
    (p.dispatch story).1 = (q.dispatch (story.reseed seed)).1 ∧
      (p.dispatch story).2.Alike a b (q.dispatch (story.reseed seed)).2 := by
  unfold Player.dispatch
  cases hpf : p.frames with
  | nil =>
      rw [similarity_alike.nil hpq hpf]
      exact ⟨rfl, hpq.frames, hpq.pending, rfl, hpq.counter, hpq.once, hpq.generator⟩
  | cons f below =>
      rcases similarity_alike.cons hpq hpf with ⟨g, under, hqg, hhead, htail⟩
      have hmatches := Frame.matches_of_anonymous hhead
      have hgroups : (story.reseed seed).group g.group = story.group f.group := by
        rw [hmatches.group]
        rfl
      simp only [hqg, hgroups]
      cases story.group f.group with
      | error fault => exact ⟨rfl, hpq⟩
      | ok found =>
          -- Frames that match stand at the same node, or have both come to the end of the group.
          simp only [hmatches.node]
          cases hnode : found.2.nodes[g.node]? with
          | none =>
              have hfinish := finishFrame_alike seed hp hq hpf hqg hhead htail hpq
              simp only
              generalize p.finishFrame story f.id = result at hfinish
              generalize q.finishFrame (story.reseed seed) g.id = result' at hfinish
              rcases result with ⟨outcome, r⟩
              rcases result' with ⟨outcome', s⟩
              rcases hfinish with ⟨rfl, hrs⟩
              cases outcome with
              | ok _ => exact ⟨rfl, hrs⟩
              | error fault => exact ⟨rfl, hrs⟩
          | some node =>
              have hrun := runNode_agree seed found.1 g.group g.node node hp hq hpq
              simp only [hmatches.group]
              generalize hresult : Act.runNode story found.1 g.group g.node node p = result at hrun
              generalize hresult' : Act.runNode (story.reseed seed) found.1 g.group g.node node q =
                result' at hrun
              cases hrun with
              | error fault =>
                  -- Both players go back to where they stood before the node.
                  simp only [rollback_of_runNode hresult, rollback_of_runNode hresult']
                  exact ⟨trivial, hpq.frames, rfl, rfl, hpq.counter, hpq.once, hpq.generator⟩
              | @ok out out' r s hout hrs =>
                  subst hout
                  cases out with
                  | none => exact ⟨rfl, hrs⟩
                  | some output => exact ⟨rfl, hrs⟩

/-- An answer is looked up by the number of a frame, which is found in both states. -/
theorem choose_agree (seed : UInt32) (index : Nat) (hp : p.WellFormed story)
    (hq : q.WellFormed story) (hpq : p.Alike a b q) :
    Agree (Player.Alike a b) Eq (Act.choose story index p)
      (Act.choose (story.reseed seed) index q) := by
  refine Agree.afterGet ?_
  have hpending := hpq.pending
  cases hc : p.pending with
  | none =>
      rw [hc] at hpending
      simp only [Option.map_eq_none_iff.1 hpending.symm]
      exact Agree.error _
  | some c =>
      rw [hc] at hpending
      rcases Option.map_eq_some_iff.1 hpending.symm with ⟨d, hd, hcd⟩
      rcases Pending.mk.inj hcd with ⟨-, hnode, hitems, -⟩
      simp only [hd, hnode, hitems]
      cases c.items[index]? with
      | none => exact Agree.error _
      | some item =>
          -- The innermost frames are those of the choice, in both states.
          rcases upTo?_pending hp hc with ⟨f, below, hpf, hfound⟩
          rcases upTo?_pending hq hd with ⟨g, under, hqg, hfound'⟩
          rcases similarity_alike.cons hpq hpf with ⟨g', under', hqg', hhead, htail⟩
          rcases List.cons.inj (hqg.symm.trans hqg') with ⟨rfl, rfl⟩
          have hmatches := Frame.matches_of_anonymous hhead
          simp only [hfound, hfound', hmatches.group]
          refine Agree.afterLift fun found _ => ?_
          rw [hmatches.node]
          cases Act.optionFor? found.2.nodes[g.node]? c.node item.id with
          | none => exact Agree.error _
          | some option =>
              refine (Act.Agrees.liftM rfl p q hpq).bind fun _ _ r s hr hs _ hrs => ?_
              have hset : Player.Alike a b
                  { p with
                    once := if option.once then p.once.mark found.1 (Once.optionKey option.id)
                      else p.once
                    pending := some c
                    frames := f :: below }
                  { q with
                    once := if option.once then q.once.mark found.1 (Once.optionKey option.id)
                      else q.once
                    pending := some d
                    frames := g :: under } := by
                refine ⟨?_, ?_, hpq.ended, hpq.counter, ?_, hpq.generator⟩
                · simp only [List.map_cons, hhead, htail]
                · simp only [Option.map_some, hcd]
                · simp only [hpq.once]
              refine (Act.Agrees.set hset r s hrs).bind fun _ _ t u _ _ _ htu => ?_
              refine (Act.agrees_enter option.group _ true t u htu).bind
                fun _ _ v w _ _ _ hvw => ?_
              exact Agree.ok rfl
                ⟨hvw.frames, rfl, hvw.ended, hvw.counter, hvw.once, hvw.generator⟩

/-! ## Twins -/

theorem wellFormed_reseed (seed : UInt32) :
    p.WellFormed (story.reseed seed) ↔ p.WellFormed story := by
  constructor
  · intro h
    refine ⟨(stacked_reseed seed).1 h.stacked, h.ended, fun c hc => ?_⟩
    rcases h.pending c hc with ⟨hended, f, below, hframes, hoffered⟩
    exact ⟨hended, f, below, hframes,
      ⟨hoffered.frame, hoffered.node, hoffered.items, hoffered.numbered⟩⟩
  · intro h
    refine ⟨(stacked_reseed seed).2 h.stacked, h.ended, fun c hc => ?_⟩
    rcases h.pending c hc with ⟨hended, f, below, hframes, hoffered⟩
    exact ⟨hended, f, below, hframes,
      ⟨hoffered.frame, hoffered.node, hoffered.items, hoffered.numbered⟩⟩

/-- Well-formed states that are alike.  The counter of the first has not run out since it was at
`a`, and the second counts from a smaller number. -/
structure Player.Twins (story : Story) (a b : UInt64) (p q : Player) : Prop where
  alike : p.Alike a b q
  first : p.WellFormed story
  second : q.WellFormed story
  start : b ≤ a
  lasted : a ≤ p.counter

/-- Two counters move together; the one with smaller numbers does not run out before the other. -/
theorem counter_follows {c c' d d' : UInt64} (h : c - a = d - b) (h' : c' - a = d' - b)
    (hstart : b ≤ a) (hlasted : a ≤ c) (hc : c ≤ c') : d ≤ d' := by
  -- The second counter is as far from `b` as the first one is from `a`.
  have hvalue : ∀ {x y : UInt64}, x - a = y - b → a ≤ x →
      y.toNat = b.toNat + (x.toNat - a.toNat) := by
    intro x y hxy hx
    have hy : y = x - a + b := by rw [hxy, UInt64.sub_add_cancel]
    rw [hy, UInt64.toNat_add, UInt64.toNat_sub_of_le _ _ hx]
    rw [UInt64.le_iff_toNat_le] at hx hstart
    have hbound := x.toNat_lt
    omega
  rw [UInt64.le_iff_toNat_le] at hc ⊢
  rw [hvalue h hlasted, hvalue h' (UInt64.le_trans hlasted (UInt64.le_iff_toNat_le.2 hc))]
  omega

namespace Player.Twins

/-- If nothing waits in one state, nothing waits in its twin. -/
theorem pending_none (h : Twins story a b p q) (hp : p.pending = none) : q.pending = none := by
  have hpending := h.alike.pending
  rw [hp] at hpending
  exact Option.map_eq_none_iff.1 hpending.symm

/-- Twins take the same step. -/
theorem dispatch (seed : UInt32) (h : Twins story a b p q) (hpending : p.pending = none)
    (hcounter : p.counter ≤ (p.dispatch story).2.counter) :
    (p.dispatch story).1 = (q.dispatch (story.reseed seed)).1 ∧
      Twins story a b (p.dispatch story).2 (q.dispatch (story.reseed seed)).2 := by
  rcases dispatch_alike seed h.first.stacked h.second.stacked h.alike with ⟨hprogress, halike⟩
  have hcounter' : q.counter ≤ (q.dispatch (story.reseed seed)).2.counter :=
    counter_follows h.alike.counter halike.counter h.start h.lasted hcounter
  have hfirst := (step_of_dispatch (Prod.eta (p.dispatch story)).symm).wellFormed h.first hpending
    hcounter
  have hsecond := (step_of_dispatch (Prod.eta (q.dispatch (story.reseed seed))).symm).wellFormed
    ((wellFormed_reseed seed).2 h.second) (h.pending_none hpending) hcounter'
  exact ⟨hprogress, halike, hfirst, (wellFormed_reseed seed).1 hsecond, h.start,
    UInt64.le_trans h.lasted hcounter⟩

/-- Twins answer a choice in the same way. -/
theorem choose (seed : UInt32) (h : Twins story a b p q) (index : Nat)
    (hcounter : p.counter ≤ (p.choose story index).2.counter) :
    (p.choose story index).1 = (q.choose (story.reseed seed) index).1 ∧
      Twins story a b (p.choose story index).2 (q.choose (story.reseed seed) index).2 := by
  have hagree : (p.choose story index).1 = (q.choose (story.reseed seed) index).1 ∧
      (p.choose story index).2.Alike a b (q.choose (story.reseed seed) index).2 := by
    have hchoose := choose_agree seed index h.first h.second h.alike
    unfold Player.choose Player.perform
    generalize hresult : Act.choose story index p = result at hchoose
    generalize hresult' : Act.choose (story.reseed seed) index q = result' at hchoose
    cases hchoose with
    | ok _ hrs => exact ⟨rfl, hrs⟩
    | error fault =>
        obtain rfl := choose_eq_error hresult
        obtain rfl := choose_eq_error hresult'
        exact ⟨rfl, h.alike⟩
  -- An answer that is refused changes nothing.
  have hwf : ∀ {story : Story} {p : Player}, p.WellFormed story →
      p.counter ≤ (p.choose story index).2.counter → (p.choose story index).2.WellFormed story := by
    intro story p hp hcounter
    rcases @choose_cases story p index with hsame | hanswer
    · rw [hsame]
      exact hp
    · exact hanswer.wellFormed hp hcounter
  rcases hagree with ⟨hresult, halike⟩
  have hcounter' : q.counter ≤ (q.choose (story.reseed seed) index).2.counter :=
    counter_follows h.alike.counter halike.counter h.start h.lasted hcounter
  have hsecond := hwf ((wellFormed_reseed seed).2 h.second) hcounter'
  exact ⟨hresult, halike, hwf h.first hcounter, (wellFormed_reseed seed).1 hsecond, h.start,
    UInt64.le_trans h.lasted hcounter⟩

end Player.Twins

/-! ## Whole calls -/

/-- Steps move the counter on once each at most. -/
theorem steps_counter (fuel : Nat) (p : Player) :
    ∃ k ≤ fuel, (p.steps story fuel).2.counter = p.counter + UInt64.ofNat k := by
  induction fuel generalizing p with
  | zero => exact ⟨0, Nat.le_refl 0, by simp [Player.steps]⟩
  | succ fuel ih =>
      simp only [Player.steps]
      cases hdispatch : p.dispatch story with
      | mk progress r =>
          have hfirst : ∃ j ≤ 1, r.counter = p.counter + UInt64.ofNat j := by
            rcases (step_of_dispatch hdispatch).kept.counter with hsame | hnext
            · exact ⟨0, Nat.zero_le 1, by simp [hsame]⟩
            · exact ⟨1, Nat.le_refl 1, by simp [hnext]⟩
          rcases hfirst with ⟨j, hj, hr⟩
          cases progress with
          | shown output => exact ⟨j, by omega, hr⟩
          | failed fault => exact ⟨j, by omega, hr⟩
          | running =>
              rcases ih r with ⟨k, hk, hcounter⟩
              refine ⟨j + k, by omega, ?_⟩
              simp only [hcounter, hr, UInt64.add_assoc, UInt64.ofNat_add]

/-- A counter that did not run out during several steps did not run out in the first of them. -/
theorem counter_lasted_first {first second last : UInt64} {k n : Nat} (hn : n < 2 ^ 32)
    (hk : k ≤ n) (hsecond : second = first ∨ second = first + 1)
    (hlast : last = second + UInt64.ofNat k) (h : first ≤ last) :
    first ≤ second ∧ second ≤ last := by
  have hone : (1 : UInt64).toNat = 1 := rfl
  have hbound := first.toNat_lt
  subst hlast
  simp only [UInt64.le_iff_toNat_le, UInt64.toNat_add, UInt64.toNat_ofNat'] at *
  rcases hsecond with rfl | rfl
  · omega
  · rw [UInt64.toNat_add] at *
    omega

namespace Player.Twins

/-- By induction on the fuel: each step agrees, and the states stay twins. -/
theorem steps (seed : UInt32) {fuel : Nat} (hfuel : fuel < 2 ^ 32) (h : Twins story a b p q)
    (hpending : p.pending = none) (hcounter : p.counter ≤ (p.steps story fuel).2.counter) :
    (p.steps story fuel).1 = (q.steps (story.reseed seed) fuel).1 ∧
      Twins story a b (p.steps story fuel).2 (q.steps (story.reseed seed) fuel).2 := by
  induction fuel generalizing p q with
  | zero => exact ⟨rfl, h⟩
  | succ fuel ih =>
      simp only [Player.steps] at hcounter ⊢
      cases hp : p.dispatch story with
      | mk progress r =>
          cases hq : q.dispatch (story.reseed seed) with
          | mk progress' s =>
              rw [hp] at hcounter
              have hstep := h.dispatch seed hpending
              rw [hp, hq] at hstep
              cases progress with
              | shown output =>
                  rcases hstep hcounter with ⟨rfl, hrs⟩
                  exact ⟨rfl, hrs⟩
              | failed fault =>
                  rcases hstep hcounter with ⟨rfl, hrs⟩
                  exact ⟨rfl, hrs⟩
              | running =>
                  -- The counter lasts for all steps together, hence for the first one of them.
                  rcases @steps_counter story fuel r with ⟨k, hk, hlast⟩
                  obtain ⟨hfirst, hrest⟩ := counter_lasted_first (by omega) hk
                    (step_of_dispatch hp).kept.counter hlast hcounter
                  rcases hstep hfirst with ⟨rfl, hrs⟩
                  exact ih (by omega) hrs (pending_of_running hp hpending) hrest

/-- A call agrees, and leaves twins. -/
theorem next (seed : UInt32) (h : Twins story a b p q)
    (hcounter : p.counter ≤ (p.next story).2.counter) :
    (p.next story).1 = (q.next (story.reseed seed)).1 ∧
      Twins story a b (p.next story).2 (q.next (story.reseed seed)).2 := by
  unfold Player.next at hcounter ⊢
  have hpending := h.alike.pending
  cases hp : p.pending with
  | some c =>
      rw [hp] at hpending
      rcases Option.map_eq_some_iff.1 hpending.symm with ⟨d, hd, hcd⟩
      rcases Pending.mk.inj hcd with ⟨-, -, hitems, hprompt⟩
      simp only [hd, Pending.output, hitems, hprompt]
      exact ⟨trivial, h⟩
  | none =>
      simp only [hp, h.pending_none hp, ← h.alike.ended] at hcounter ⊢
      by_cases hended : p.ended = true
      · simp only [hended, if_true]
        exact ⟨trivial, h⟩
      · simp only [hended] at hcounter ⊢
        exact h.steps seed (by decide) hp hcounter

/-- Twins carry out a request in the same way. -/
theorem respond (seed : UInt32) (h : Twins story a b p q) (request : Request)
    (hcounter : p.counter ≤ (p.respond story request).2.counter) :
    (p.respond story request).1 = (q.respond (story.reseed seed) request).1 ∧
      Twins story a b (p.respond story request).2 (q.respond (story.reseed seed) request).2 := by
  cases request with
  | next =>
      rcases h.next seed hcounter with ⟨hresult, htwins⟩
      exact ⟨congrArg Reply.output hresult, htwins⟩
  | choose index =>
      rcases h.choose seed index hcounter with ⟨hresult, htwins⟩
      exact ⟨congrArg Reply.done hresult, htwins⟩

end Player.Twins

/-! ## What is seen of a run -/

/-- What is seen of a request: the reply, and the state after it as far as it can be asked for. -/
structure Observation where
  reply : Reply
  waiting : Bool
  ended : Bool
  generator : UInt32

/-- What is seen when requests are carried out one after the other. -/
def Player.observe (story : Story) (p : Player) : List Request → List Observation
  | [] => []
  | request :: rest =>
    let (reply, q) := p.respond story request
    ⟨reply, q.waiting, q.ended, q.generator⟩ :: q.observe story rest

/-- Twins look the same in all runs. -/
theorem Player.Twins.observe (seed : UInt32) (h : Twins story a b p q) {requests : List Request}
    (hlasts : CounterLasts story p requests) :
    p.observe story requests = q.observe (story.reseed seed) requests := by
  induction requests generalizing p q with
  | nil => rfl
  | cons request rest ih =>
      rcases hlasts with ⟨hfirst, hrest⟩
      rcases h.respond seed request hfirst with ⟨hreply, htwins⟩
      have hwaiting : (p.respond story request).2.waiting =
          (q.respond (story.reseed seed) request).2.waiting := by
        simpa [Player.waiting] using congrArg Option.isSome htwins.alike.pending
      simp only [Player.observe, hreply, hwaiting, htwins.alike.ended, htwins.alike.generator,
        ih htwins hrest]

end StoryPlayer
