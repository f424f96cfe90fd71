import StoryPlayer.Proofs.WellFormed

/-!
# Calls that fail

A call of `Player.next` takes steps until there is something to show.  When one of them fails, the
steps before it stay, and the story may be asked again.

- a node that fails changes nothing, whatever it has done before the fault: `next_of_runNode`,
- asked again, it fails in the same way,
- a script that has run to its end is taken off the stack even if what was passed to it by reference
  cannot be handed over: `BrokenReturn.length_lt`,
- `next_retry` concludes that no other step leaves something behind when it fails.
-/

namespace StoryPlayer

variable {story : Story} {p q r : Player} {fault : Fault}

/-- The nodes of the innermost group are used up. -/
def Player.Exhausted (story : Story) (p : Player) : Prop :=
  ∃ f below found, p.frames = f :: below ∧ story.group f.group = .ok found ∧
    found.2.nodes[f.node]? = none

/-- The step in which a script that has run to its end goes away, although not all that was passed to
it by reference can be handed over. -/
inductive BrokenReturn (story : Story) (p : Player) (fault : Fault) : Player → Prop
  | mk {f root : Frame} {below others frames : List Frame} {c : Continuation} :
      p.frames = f :: below → Frames.takeOut? f.id p.frames = some (root, others) →
      root.root = true → root.continuation = some c →
      Frames.writeBack story root.scope c.refs others = (.error fault, frames) →
      BrokenReturn story p fault { p with frames }

/-- Ending a frame fails only if a script returns. -/
theorem brokenReturn_of_finishFrame {f : Frame} {below : List Frame} (hp : p.frames = f :: below)
    (h : p.finishFrame story f.id = (.error fault, q)) : BrokenReturn story p fault q := by
  unfold Player.finishFrame at h
  cases htake : Frames.takeOut? f.id p.frames with
  | none =>
      rw [htake] at h
      cases h
  | some found =>
      rcases found with ⟨root, others⟩
      simp only [htake] at h
      by_cases hroot : root.root = true
      · rw [if_pos hroot] at h
        cases hc : root.continuation with
        | none =>
            simp only [Player.settle, hc] at h
            cases h
        | some c =>
            simp only [Player.settle, hc] at h
            split at h
            · split at h
              · cases h
              · next hback =>
                cases h
                exact BrokenReturn.mk hp htake hroot hc hback
            · cases h
      · rw [if_neg hroot] at h
        cases h

/-- The frame of the script is gone. -/
theorem BrokenReturn.length_lt (h : BrokenReturn story p fault q) :
    q.frames.length < p.frames.length := by
  cases h with
  | @mk f root below others frames c _ htake _ _ hback =>
      have hwritten := (Frames.revalued_writeBack story root.scope c.refs others).length_eq
      rw [hback] at hwritten
      have htaken := (Frames.takeOut?_perm htake).length_eq
      rw [List.length_cons] at htaken
      exact hwritten ▸ htaken ▸ Nat.lt_succ_self _

/-- Nothing waits for an answer, and the story is over only if no frames are left. -/
structure Player.Open (p : Player) : Prop where
  pending : p.pending = none
  ended : p.ended = true → p.frames = []

/-- Nothing waits for an answer, and the story is not over. -/
theorem Player.Open.of_going (hpending : p.pending = none) (hended : p.ended = false) : p.Open :=
  ⟨hpending, fun hover => by simp [hended] at hover⟩

/-- While a frame is left, the state to which a failing node goes back is the state before it. -/
theorem Player.Open.restored {f : Frame} {below : List Frame} (hp : p.Open)
    (hframes : p.frames = f :: below) : { p with pending := none, ended := false } = p := by
  have hended : p.ended = false := by
    by_contra hover
    have hnil := hp.ended (by simpa using hover)
    simp [hnil] at hframes
  rw [← hp.pending, ← hended]

/-- A step that fails has done nothing, unless it was to end a script. -/
theorem failed_cases (hp : p.Open) (h : p.dispatch story = (.failed fault, q)) :
    (¬ p.Exhausted story ∧ p.frames ≠ [] ∧ q = p) ∨
      (p.Exhausted story ∧ BrokenReturn story p fault q) := by
  -- The node at which the innermost frame stands tells the two apart.
  have hactive : ∀ {f : Frame} {below : List Frame} {node : Node} {found : String × Group},
      p.frames = f :: below → story.group f.group = .ok found →
      found.2.nodes[f.node]? = some node → ¬ p.Exhausted story := by
    rintro f below node found hframes hgroup hnode ⟨g, under, found', hframes', hgroup', hnone⟩
    rcases List.cons.inj (hframes.symm.trans hframes') with ⟨rfl, rfl⟩
    rcases Except.ok.inj (hgroup.symm.trans hgroup') with rfl
    simp [hnode] at hnone
  generalize hprogress : Progress.failed fault = progress at h
  cases step_of_dispatch h with
  | concluded _ => cases hprogress
  | @groupMissing f _ _ hframes hgroup =>
      refine Or.inl ⟨?_, by simp [hframes], rfl⟩
      rintro ⟨g, under, found, hframes', hgroup', -⟩
      rcases List.cons.inj (hframes.symm.trans hframes') with ⟨rfl, rfl⟩
      simp [hgroup] at hgroup'
  | finished _ _ _ _ => cases hprogress
  | finishFailed hframes hgroup hnone hfinish =>
      rcases Progress.failed.inj hprogress with rfl
      exact Or.inr ⟨⟨_, _, _, hframes, hgroup, hnone⟩, brokenReturn_of_finishFrame hframes hfinish⟩
  | @moved _ _ _ _ out _ _ _ _ _ => cases out <;> cases hprogress
  | nodeFailed hframes hgroup hnode _ =>
      exact Or.inl ⟨hactive hframes hgroup hnode, by simp [hframes], hp.restored hframes⟩

/-! ## The state in which a step fails -/

/-- Steps that show nothing leave a state in which nothing waits. -/
theorem Runs.open {n : Nat} (h : Runs story n p r) (hp : p.Open) : r.Open := by
  induction h with
  | refl p => exact hp
  | @step n p q r hrun _ ih =>
      refine ih ⟨pending_of_running hrun hp.pending, fun hended => ?_⟩
      have hstep := step_of_dispatch hrun
      rcases hstep.kept.ended with hsame | hfalse | ⟨hnil, -⟩
      · -- The story was over before the step, which left the empty stack alone.
        have hover := hp.ended (hsame ▸ hended)
        rw [hstep.eq_stop hover]
        exact hover
      · simp [hfalse] at hended
      · exact hnil

/-- A call that takes steps within its limit and then one that fails. -/
theorem next_of_failed {n : Nat} (hpending : p.pending = none) (hended : p.ended = false)
    (hruns : Runs story n p r) (hn : n < Player.guardLimit)
    (h : r.dispatch story = (.failed fault, q)) : p.next story = (.error fault, q) := by
  rcases Nat.exists_eq_add_of_lt hn with ⟨rest, hlimit⟩
  have hsteps : p.steps story Player.guardLimit = (.error fault, q) := by
    rw [hlimit, Nat.add_assoc, steps_of_runs hruns]
    simp only [Player.steps, h]
  simp only [Player.next, hpending, hended, hsteps]
  rfl

/-- A call fails because of one step, or because too many of them show nothing. -/
theorem next_eq_error (h : p.next story = (.error fault, q)) :
    p.Open ∧ (fault = .guardExceeded Player.guardLimit ∨
      ∃ n r, Runs story n p r ∧ r.dispatch story = (.failed fault, q)) := by
  unfold Player.next at h
  cases hpending : p.pending with
  | some pending =>
      rw [hpending] at h
      cases h
  | none =>
      simp only [hpending] at h
      by_cases hended : p.ended = true
      · rw [if_pos hended] at h
        cases h
      · rw [if_neg hended] at h
        refine ⟨⟨hpending, fun hover => absurd hover hended⟩, ?_⟩
        generalize hresult : (Except.error fault : Except Fault Output) = result at h
        -- A call fails for want of steps, or because its last step has failed.
        cases steps_ending h with
        | guarded _ =>
            cases hresult
            exact Or.inl rfl
        | shown _ _ _ => cases hresult
        | failed _ hruns hlast =>
            cases hresult
            exact Or.inr ⟨_, _, hruns, hlast⟩

/-- A call fails because of its last step.  This step leaves the state as it was, and the call fails
again in the same way when it is repeated, exactly if the step was not to end a script. -/
theorem next_retry (hnext : p.next story = (.error fault, q))
    (hfault : fault ≠ .guardExceeded Player.guardLimit) :
    ∃ n r, Runs story n p r ∧ r.dispatch story = (.failed fault, q) ∧
      (q = r ∧ q.next story = (.error fault, q) ↔ ¬ r.Exhausted story) := by
  rcases next_eq_error hnext with ⟨hopen, hguard | ⟨n, r, hruns, hlast⟩⟩
  · exact absurd hguard hfault
  · have hr := hruns.open hopen
    refine ⟨n, r, hruns, hlast, ?_⟩
    rcases failed_cases hr hlast with ⟨hactive, hframes, rfl⟩ | ⟨hexhausted, hbroken⟩
    · -- The step had a frame to stand in, so the story was not over.
      have hended : q.ended = false := by
        by_contra hover
        exact hframes (hr.ended (by simpa using hover))
      have hagain := next_of_failed hr.pending hended (Runs.refl q) (by decide) hlast
      exact iff_of_true ⟨rfl, hagain⟩ hactive
    · refine iff_of_false ?_ (not_not_intro hexhausted)
      rintro ⟨rfl, -⟩
      exact Nat.lt_irrefl _ hbroken.length_lt

theorem next_eq_mk {result : Except Fault Output} (h : (p.next story).1 = result) :
    p.next story = (result, (p.next story).2) := by
  rw [← h]

/-- A text is shown, then a script is called that does not exist. -/
def lostTale : Story :=
  .ofScripts [("main", .ofGroups "main" [] [
    ("main", [.text "t" "hello" false, .call "k" "nowhere" []])])]

/-- The call fails at a node, so it can be repeated. -/
theorem next_retry_lostTale :
    ∃ q, (lostTale.opening.play lostTale [.next]).next lostTale =
        (.error (.callTargetNotFound "nowhere"), q) ∧
      ∃ n r, Runs lostTale n (lostTale.opening.play lostTale [.next]) r ∧
        r.dispatch lostTale = (.failed (.callTargetNotFound "nowhere"), q) ∧
        (q = r ∧ q.next lostTale = (.error (.callTargetNotFound "nowhere"), q) ↔
          ¬ r.Exhausted lostTale) := by
  have hresult : ((lostTale.opening.play lostTale [.next]).next lostTale).1 =
      .error (.callTargetNotFound "nowhere") := by decide +kernel
  exact ⟨_, next_eq_mk hresult, next_retry (next_eq_mk hresult) (by decide)⟩

/-- The callee shows the text that it was given, and gives new values to the text and to a map.  Of
these the text can be handed over, the map cannot. -/
def giftTale : Story :=
  .ofScripts [
    ("helper", .ofGroups "helper"
      [⟨"a", .primitive .string, true⟩, ⟨"m", .map (.primitive .string), true⟩] [
      ("helper", [.text "t" "hello ${a}" false, .code "c" "a = \"b\"; m.b = \"x\";"])]),
    ("main", .ofGroups "main" [] [
      ("main", [.declare "u" ⟨"s", .primitive .string, none⟩,
        .declare "v" ⟨"o", .object "O" [("a", .primitive .string)], none⟩,
        .call "k" "helper" [⟨"s", true⟩, ⟨"o", true⟩]])])]

/-- The call fails at the end of the callee.  This has gone then, and its caller has received the
text; asked again, the story calls the script once more and shows its text a second time. -/
theorem giftTale_shows_again :
    Player.begin giftTale "main" [] = .ok giftTale.opening ∧
      (giftTale.opening.next giftTale).1 = .ok (.text "hello ") ∧
      ∃ fault q, (giftTale.opening.play giftTale [.next]).next giftTale = (.error fault, q) ∧
        fault = .variableType "o" "O" "map" ∧
        q.frames.map (fun f => (f.group, (Dict.get? f.scope "s").bind Value.asText?)) =
          [("main", some "b")] ∧
        (q.next giftTale).1 = .ok (.text "hello b") := by
  have hresult : ((giftTale.opening.play giftTale [.next]).next giftTale).1 =
      .error (.variableType "o" "O" "map") := by decide +kernel
  refine ⟨rfl, by decide +kernel, _, _, next_eq_mk hresult, rfl, ?_, ?_⟩
  · decide +kernel
  · decide +kernel

/-! ## Nodes that fail -/

/-- The step in which a node fails. -/
theorem dispatch_of_runNode {f : Frame} {below : List Frame} {found : String × Group} {node : Node}
    {failure : Failure} (hframes : p.frames = f :: below) (hgroup : story.group f.group = .ok found)
    (hnode : found.2.nodes[f.node]? = some node)
    (hfail : Act.runNode story found.1 f.group f.node node p = .error failure) :
    p.dispatch story = (.failed failure.fault, { p with pending := none, ended := false }) := by
  simp only [Player.dispatch, hframes, hgroup, hnode, hfail, rollback_of_runNode hfail]

/-- Whatever a node has changed before it fails, the call that runs it ends in the state before that
node.  The steps that the call has taken before stay. -/
theorem next_of_runNode {n : Nat} {f : Frame} {below : List Frame} {found : String × Group}
    {node : Node} {failure : Failure} (hpending : p.pending = none) (hended : p.ended = false)
    (hruns : Runs story n p r) (hn : n < Player.guardLimit) (hframes : r.frames = f :: below)
    (hgroup : story.group f.group = .ok found) (hnode : found.2.nodes[f.node]? = some node)
    (hfail : Act.runNode story found.1 f.group f.node node r = .error failure) :
    p.next story = (.error failure.fault, r) := by
  have hopen : p.Open := ⟨hpending, fun hover => by simp [hended] at hover⟩
  have hlast := dispatch_of_runNode hframes hgroup hnode hfail
  rw [(hruns.open hopen).restored hframes] at hlast
  exact next_of_failed hpending hended hruns hn hlast

/-- The callee gives new values to a text and to a map, and ends the script itself. -/
def halfwayTale.helper : List Node :=
  [.text "t" "hello" false, .code "c" "a = \"b\"; m.b = \"x\";", .finish "r" none []]

/-- Of what the callee was given by reference the text can be handed over, the map cannot. -/
def halfwayTale : Story :=
  .ofScripts [
    ("helper", .ofGroups "helper"
      [⟨"a", .primitive .string, true⟩, ⟨"m", .map (.primitive .string), true⟩] [
      ("helper", halfwayTale.helper)]),
    ("main", .ofGroups "main" [] [
      ("main", [.declare "u" ⟨"s", .primitive .string, none⟩,
        .declare "v" ⟨"o", .object "O" [("a", .primitive .string)], none⟩,
        .call "k" "helper" [⟨"s", true⟩, ⟨"o", true⟩]])])]

/-- The state after the text: the callee stands at its code. -/
def halfwayTale.told : Player :=
  halfwayTale.opening.play halfwayTale [.next]

def halfwayTale.coded : Player :=
  (halfwayTale.told.dispatch halfwayTale).2

/-- The return has dropped the callee before it fails; the state after the call still has it. -/
theorem next_of_runNode_halfwayTale :
    ∃ failure, Act.runNode halfwayTale "helper" "helper" 2 (.finish "r" none []) halfwayTale.coded =
        .error failure ∧
      failure.fault = .variableType "o" "O" "map" ∧
      failure.reached.frames.length = 1 ∧ halfwayTale.coded.frames.length = 2 ∧
      Runs halfwayTale 1 halfwayTale.told halfwayTale.coded ∧
      halfwayTale.told.next halfwayTale = (.error failure.fault, halfwayTale.coded) := by
  have hcoded : halfwayTale.told.dispatch halfwayTale = (.running, halfwayTale.coded) := by
    refine Prod.ext (by decide +kernel) ?_
    rw [halfwayTale.coded]
  have hruns := Runs.step hcoded (Runs.refl halfwayTale.coded)
  -- When the map is refused, the callee is gone already.
  have hresult : (match Act.runNode halfwayTale "helper" "helper" 2 (.finish "r" none [])
      halfwayTale.coded with
    | .ok _ => none
    | .error failure => some (failure.fault, failure.reached.frames.length)) =
      some (.variableType "o" "O" "map", 1) := by decide +kernel
  have hstack : halfwayTale.coded.frames.map (fun f => (f.group, f.node)) =
      [("helper", 2), ("main", 2)] := by decide +kernel
  have hpending : halfwayTale.told.pending = none := by decide +kernel
  have hended : halfwayTale.told.ended = false := by decide +kernel
  obtain ⟨f, below, hframes, hplace⟩ := List.map_eq_cons_iff.1 hstack
  obtain ⟨⟨hgroup, hnode⟩, hbelow⟩ := And.imp_left Prod.mk.inj hplace
  generalize hfail : Act.runNode halfwayTale "helper" "helper" 2 (.finish "r" none [])
    halfwayTale.coded = result at hresult
  cases result with
  | ok _ => cases hresult
  | error failure =>
      obtain ⟨hfault, hlength⟩ := Prod.mk.inj (Option.some.inj hresult)
      refine ⟨failure, rfl, hfault, hlength, ?_, hruns, ?_⟩
      · simpa using congrArg List.length hstack
      · have hfound : halfwayTale.group f.group =
            .ok ("helper", ⟨"helper", none, halfwayTale.helper⟩) := by
          rw [hgroup]
          rfl
        have hreturn : halfwayTale.helper[f.node]? = some (.finish "r" none []) := by
          rw [hnode]
          rfl
        refine next_of_runNode hpending hended hruns (by decide) hframes hfound hreturn ?_
        rw [hgroup, hnode]
        exact hfail

end StoryPlayer
