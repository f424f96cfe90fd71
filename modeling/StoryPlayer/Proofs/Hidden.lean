import StoryPlayer.Proofs.Documents
import StoryPlayer.Proofs.Operations
import StoryPlayer.Proofs.Restacking

/-!
# Documents that a script may not look into

Two stories that differ only in documents which no script that is run may look into cannot be told
apart by anything that is asked of them.

- `Player.groupsRun` are the groups that a call of `Player.next` runs,
- `Player.Secluded` says that nothing but the innermost group, which may not have been run yet, can
  see a difference; steps and answers keep it as long as only groups of allowed scripts are run,
- `documents_hidden` is the theorem about sequences of operations.
-/

namespace StoryPlayer

variable {story : Story} {globals : Globals} {p q : Player}

open Frames (SeesAlike)

/-! ## Groups below the innermost one -/

/-- A frame that is moved stays in its group. -/
theorem Frames.moveTo_groups (id : UInt64) (node : Nat) (fs : List Frame) :
    (moveTo id node fs).map Frame.group = fs.map Frame.group := by
  induction fs with
  | nil => rfl
  | cons f below ih =>
      simp only [moveTo]
      split
      · rw [List.map_cons, List.map_cons, ih]
      · split <;> rfl

/-- Below the innermost frame a step leaves only groups that were there before. -/
theorem Restacked.groups (h : Restacked story p q) :
    q.frames.tail.map Frame.group ⊆ p.frames.map Frame.group := by
  have hshape : ∀ {fs gs : List Frame}, Frames.SameShape fs gs →
      gs.map Frame.group = fs.map Frame.group := by
    intro fs gs h
    have houtlines := congrArg (List.map Frame.group) h
    rwa [List.map_map, List.map_map] at houtlines
  have htail : ∀ frames : List Frame, frames.tail.map Frame.group ⊆ frames.map Frame.group :=
    fun frames => List.map_subset _ (List.tail_sublist frames).subset
  -- A step adds at most one frame, on top of frames that were there before.
  cases h with
  | dropped hsame hsuffix _ =>
      rw [← hshape hsame]
      exact List.Subset.trans (htail _) (List.map_subset _ hsuffix.subset)
  | advanced hsame hsuffix _ hq _ =>
      rw [← hshape hsame]
      refine List.Subset.trans (htail _) ?_
      rw [hshape hq]
      have hgroups := List.map_subset Frame.group hsuffix.subset
      exact hgroups
  | ended hremoved hq _ =>
      refine List.Subset.trans (htail _) ?_
      rw [hshape hq]
      exact List.map_subset _ hremoved.sublist.subset
  | @returned g others after c hremoved _ _ hafter hq _ =>
      refine List.Subset.trans (htail _) ?_
      rw [hq, Frames.moveTo_groups, hshape hafter]
      exact List.map_subset _ hremoved.sublist.subset
  | @entered fs below f f' _ _ _ _ hsame hsuffix _ hf _ hq _ =>
      have hgroups : (f' :: below).map Frame.group = (f :: below).map Frame.group := by
        rcases hf with rfl | rfl <;> rfl
      rw [← hshape hsame, hq, List.tail_cons, hgroups]
      exact List.map_subset _ hsuffix.subset
  | called hsame _ _ hq _ =>
      rw [← hshape hsame, hq, List.tail_cons]
      exact List.Subset.refl _
  | replaced hsame hsuffix _ hafter _ _ hq _ =>
      rw [← hshape hsame, hq, List.tail_cons, hshape hafter]
      exact List.map_subset _ ((List.suffix_cons _ _).trans hsuffix).subset

/-- A step that opens a choice changes nothing but values in the frames. -/
theorem Step.opened {progress : Progress} {c : Pending} (h : Step story p progress q)
    (hpending : p.pending = none) (hc : q.pending = some c) :
    Frames.Revalued p.frames q.frames := by
  have hshown : progress.output? = some c.output := h.kept.shown hpending hc
  cases h with
  | concluded _ => exact Frames.Revalued.refl _
  | groupMissing _ _ => exact Frames.Revalued.refl _
  | finished _ _ _ _ => cases hshown
  | finishFailed _ _ _ _ => cases hshown
  | nodeFailed _ _ _ _ => exact Frames.Revalued.refl _
  | @moved _ _ _ _ out _ _ _ _ hmove =>
      obtain rfl : out = some c.output := hmove.kept.shown hpending hc
      cases hmove with
      | choice hoffered _ hitems hprompt _ => exact (evaluated_of_choice hoffered hitems hprompt).frames

/-! ## States -/

/-- The frames below the innermost one see the same documents in both stories, and so does the
innermost frame if it waits for an answer. -/
structure Player.Secluded (story : Story) (globals : Globals) (p : Player) : Prop where
  below : SeesAlike story globals p.frames.tail
  waiting : ∀ c, p.pending = some c → SeesAlike story globals p.frames

/-- If all frames see the same documents, so do all but the innermost one after a step. -/
theorem secluded_dispatch {progress : Progress} (h : p.dispatch story = (progress, q))
    (hp : SeesAlike story globals p.frames) (hpending : p.pending = none) :
    q.Secluded story globals where
  below := hp.of_groups (step_of_dispatch h).restacked.groups
  waiting _ hc := hp.revalued ((step_of_dispatch h).opened hpending hc)

/-- The groups that are run while steps are taken until there is something to show, at most `fuel` of
them. -/
def Player.groupsRun (story : Story) : Nat → Player → List String
  | 0, _ => []
  | fuel + 1, p =>
    match p.frames with
    | [] => []
    | f :: _ =>
      f.group ::
        match p.dispatch story with
        | (.running, q) => groupsRun story fuel q
        | _ => []

/-- The groups that are run to get to the next thing to show. -/
def Player.groupsOfNext (story : Story) (p : Player) : List String :=
  if p.pending.isSome || p.ended then [] else p.groupsRun story guardLimit

/-- The scripts of the groups see the same documents in both stories. -/
def Story.GroupsAlike (story : Story) (globals : Globals) (groups : List String) : Prop :=
  ∀ group ∈ groups, ∀ script ∈ story.owner? group,
    (story.withGlobals globals).visible script = story.visible script

/-- Steps are the same in both stories as long as the groups that are run see alike. -/
theorem steps_withGlobals {fuel : Nat} (hp : p.Secluded story globals)
    (hpending : p.pending = none)
    (hgroups : story.GroupsAlike globals (p.groupsRun story fuel)) :
    p.steps (story.withGlobals globals) fuel = p.steps story fuel ∧
      (p.steps story fuel).2.Secluded story globals := by
  induction fuel generalizing p with
  | zero => exact ⟨rfl, hp⟩
  | succ fuel ih =>
      -- The group that is run sees alike, and the frames below it do so anyway.
      have hsees : SeesAlike story globals p.frames := by
        cases hframes : p.frames with
        | nil => exact fun f hf => by cases hf
        | cons f below =>
            have hbelow := hp.below
            rw [hframes] at hbelow
            intro g hg
            rcases List.mem_cons.1 hg with rfl | hg
            · refine hgroups g.group ?_
              simp only [Player.groupsRun, hframes]
              exact List.mem_cons_self
            · exact hbelow g hg
      simp only [Player.steps, dispatch_withGlobals hsees]
      cases hdispatch : p.dispatch story with
      | mk progress r =>
          have hr := secluded_dispatch hdispatch hsees hpending
          cases progress with
          | shown output => exact ⟨rfl, hr⟩
          | failed fault => exact ⟨rfl, hr⟩
          | running =>
              refine ih hr (pending_of_running hdispatch hpending) fun group hgroup => ?_
              cases hframes : p.frames with
              | nil => simp [Player.dispatch, hframes] at hdispatch
              | cons f below =>
                  refine hgroups group ?_
                  simp only [Player.groupsRun, hframes, hdispatch]
                  exact List.mem_cons_of_mem _ hgroup

/-- A call agrees with other documents if no group that it runs can see them. -/
theorem next_withGlobals (hp : p.Secluded story globals)
    (hgroups : story.GroupsAlike globals (p.groupsOfNext story)) :
    p.next (story.withGlobals globals) = p.next story ∧
      (p.next story).2.Secluded story globals := by
  unfold Player.next
  cases hpending : p.pending with
  | some c => exact ⟨rfl, hp⟩
  | none =>
      by_cases hended : p.ended = true
      · simp only [hended, if_true, true_and]
        exact hp
      · simp only [hended]
        refine steps_withGlobals hp hpending ?_
        simpa [Player.groupsOfNext, hpending, hended] using hgroups

/-- Answers do not look into documents. -/
theorem secluded_choose (hp : p.Secluded story globals) (index : Nat) :
    (p.choose story index).2.Secluded story globals := by
  rcases @choose_cases story p index with hsame | hanswer
  · rw [hsame]
    exact hp
  · rcases hanswer.waited with ⟨c, hc⟩
    refine ⟨(hp.waiting c hc).of_groups hanswer.restacked.groups, fun d hd => ?_⟩
    rw [hanswer.closed] at hd
    cases hd

/-- A start leaves a single frame, or the state as it was. -/
theorem secluded_start (hp : p.Secluded story globals) (script : String)
    (arguments : Dict Value) : (p.start story script arguments).2.Secluded story globals := by
  unfold Player.start
  cases hbegin : Player.begin story script arguments with
  | error fault => exact hp
  | ok q =>
      rcases begin_eq_ok hbegin with ⟨callee, root, locals, -, -, -, rfl⟩
      exact ⟨fun f hf => (by cases hf), fun c hc => (by cases hc)⟩

/-! ## Operations -/

/-- The operation plays the story: it does not go on from a save. -/
def Operation.plays : Operation → Bool
  | .resume _ => false
  | _ => true

namespace Session

def withGlobals (s : Session) (globals : Globals) : Session :=
  { s with story := s.story.withGlobals globals }

def groupsRun (s : Session) : Operation → List String
  | .next => s.player.groupsOfNext s.story
  | _ => []

/-- The groups that operations run, one after the other. -/
def groupsOfAll (s : Session) : List Operation → List String
  | [] => []
  | operation :: rest => s.groupsRun operation ++ (s.operate operation).2.groupsOfAll rest

def replies (s : Session) : List Operation → List Reply
  | [] => []
  | operation :: rest => (s.operate operation).1 :: (s.operate operation).2.replies rest

variable {s : Session}

/-- An operation does the same in both stories as long as the groups that are run see alike. -/
theorem operate_withGlobals {operation : Operation} (hs : s.player.Secluded s.story globals)
    (hplays : operation.plays = true)
    (hgroups : s.story.GroupsAlike globals (s.groupsRun operation)) :
    (s.withGlobals globals).operate operation =
        ((s.operate operation).1, (s.operate operation).2.withGlobals globals) ∧
      (s.operate operation).2.player.Secluded s.story globals := by
  cases operation with
  | next =>
      rcases next_withGlobals hs hgroups with ⟨hsame, hsecluded⟩
      refine ⟨?_, hsecluded⟩
      simp only [operate, next, after, withGlobals, hsame]
  | choose index => exact ⟨rfl, secluded_choose hs index⟩
  | start script arguments => exact ⟨rfl, secluded_start hs script arguments⟩
  | resume snapshot => cases hplays

/-- By induction on the operations: each of them agrees and leaves the state secluded. -/
theorem operations_withGlobals {operations : List Operation}
    (hs : s.player.Secluded s.story globals)
    (hplays : ∀ operation ∈ operations, operation.plays = true)
    (hgroups : s.story.GroupsAlike globals (s.groupsOfAll operations)) :
    (s.withGlobals globals).replies operations = s.replies operations ∧
      (s.withGlobals globals).afterAll operations =
        (s.afterAll operations).withGlobals globals := by
  induction operations generalizing s with
  | nil => exact ⟨rfl, rfl⟩
  | cons operation rest ih =>
      have hfirst : s.story.GroupsAlike globals (s.groupsRun operation) :=
        fun group hgroup => hgroups group (List.mem_append_left _ hgroup)
      rcases operate_withGlobals hs (hplays _ List.mem_cons_self) hfirst with ⟨hsame, hsecluded⟩
      have hstory : (s.operate operation).2.story = s.story := story_operate s operation
      have hnext := @ih (s.operate operation).2 (hstory ▸ hsecluded)
        (fun other hother => hplays other (List.mem_cons_of_mem _ hother))
        (fun group hgroup => hstory ▸ hgroups group (List.mem_append_right _ hgroup))
      refine ⟨?_, ?_⟩
      · simp only [replies, hsame, hnext.1]
      · simp only [afterAll, List.foldl_cons, hsame]
        exact hnext.2

end Session

/-- Two stories that differ only in documents, and agree on those that the given scripts may look
into, give the same replies and come to the same state, whatever is asked of them, as long as only
groups of these scripts are run. -/
theorem documents_hidden {scripts : List String} {operations : List Operation}
    (hsorted : Dict.Sorted story.globals) (hsorted' : Dict.Sorted globals)
    (hagree : ∀ script ∈ scripts, ∀ found, Dict.get? story.scripts script = some found →
      ∀ name ∈ found.visibleGlobals, Dict.get? globals name = Dict.get? story.globals name)
    (hplays : ∀ operation ∈ operations, operation.plays = true)
    (hruns : ∀ group ∈ (Session.mk story (Player.fresh story.seed)).groupsOfAll operations,
      ∀ script ∈ story.owner? group, script ∈ scripts) :
    (Session.mk (story.withGlobals globals) (Player.fresh story.seed)).replies operations =
        (Session.mk story (Player.fresh story.seed)).replies operations ∧
      ((Session.mk (story.withGlobals globals) (Player.fresh story.seed)).afterAll
          operations).player =
        ((Session.mk story (Player.fresh story.seed)).afterAll operations).player := by
  have hfresh : (Player.fresh story.seed).Secluded story globals :=
    ⟨fun f hf => (by cases hf), fun c hc => (by cases hc)⟩
  have hsame := @Session.operations_withGlobals globals ⟨story, Player.fresh story.seed⟩ operations
    hfresh hplays fun group hgroup script hscript =>
      visible_withGlobals hsorted hsorted' (hagree script (hruns group hgroup script hscript))
  have hplayer := congrArg Session.player hsame.2
  exact ⟨hsame.1, hplayer⟩

/-- A script that may look into one of two documents tries to look into the other one too. -/
def vaultTale : Story where
  scripts := [
    ("main", { Script.ofGroups "main" [] [
      ("main", [.text "t" "${sign}" false, .text "u" "${secret}" false])] with
      visibleGlobals := ["sign"] }),
    ("vault", { Script.ofGroups "vault" [] [("vault", [.text "t" "${secret}" false])] with
      visibleGlobals := ["secret"] })]
  globals := [("secret", .text "gold"), ("sign", .text "welcome")]
  version := Story.defaultVersion
  seed := Story.defaultSeed
  host := .none
  evaluator := Formula.interpreter

/-- With another secret document the script shows the sign and fails as before. -/
theorem documents_hidden_vaultTale :
    let session := Session.mk vaultTale (Player.fresh vaultTale.seed)
    let other := session.withGlobals [("secret", .text "iron"), ("sign", .text "welcome")]
    let operations := [.start "main" [], .next, .next]
    session.groupsOfAll operations = ["main", "main"] ∧
      (session.replies operations).map Reply.fault? =
        [none, none, some (.variableUndefined "secret")] ∧
      other.replies operations = session.replies operations ∧
      (other.afterAll operations).player = (session.afterAll operations).player := by
  have hgroups : (Session.mk vaultTale (Player.fresh vaultTale.seed)).groupsOfAll
      [.start "main" [], .next, .next] = ["main", "main"] := by decide +kernel
  refine ⟨hgroups, by decide +kernel, ?_⟩
  have hsorted : ∀ secret sign : Value, Dict.Sorted [("secret", secret), ("sign", sign)] := by
    intro secret sign
    have hlt : "secret" < "sign" := by decide +kernel
    exact List.pairwise_pair.2 hlt
  have hagree : ∀ script ∈ ["main"], ∀ found, Dict.get? vaultTale.scripts script = some found →
      ∀ name ∈ found.visibleGlobals,
        Dict.get? [("secret", Value.text "iron"), ("sign", .text "welcome")] name =
          Dict.get? vaultTale.globals name := by
    intro script hscript found hfound name hname
    rcases List.mem_singleton.1 hscript with rfl
    rcases Option.some.inj hfound with rfl
    rcases List.mem_singleton.1 hname with rfl
    rfl
  refine documents_hidden (hsorted _ _) (hsorted _ _) hagree (by decide) ?_
  rw [hgroups]
  decide +kernel

end StoryPlayer
