import StoryPlayer.Proofs.OnceEvents
import StoryPlayer.Proofs.Recovery
import StoryPlayer.Proofs.Saving
import StoryPlayer.Session

/-!
# Things that are used once

What is marked to be used once is used once, even if the story is saved and goes on elsewhere.

- `Session.log` lists the events of a journey: calls of `next` and `choose`, and hops by a save into
  another session of the same bundle,
- `Player.Sparing` is kept along the way: a choice that waits offers nothing that has been used up,
- `once_only` concludes that nothing that has been used up is shown, chosen or offered again.
-/

namespace StoryPlayer

/-! ## Journeys -/

inductive Leg
  /-- Play on to the next thing to show. -/
  | next
  /-- Answer a choice by the place of an item. -/
  | choose (index : Nat)
  /-- Save the story, and go on from the text of the save in a session of the same bundle, in which
  something may have been played before. -/
  | hop (seed : Option UInt32) (host : HostFunctions) (evaluator : Formula.Evaluator)
    (before : Player)

namespace Session

/-- The session that goes on from the text of a save of this one. -/
def hop (bundle : Bundle) (seed : Option UInt32) (host : HostFunctions)
    (evaluator : Formula.Evaluator) (before : Player) (s : Session) : Except Fault Session := do
  let text ← s.save
  let save ← Snapshot.decode text
  let story ← Story.make bundle seed host evaluator
  checked ((Session.mk story before).resume save)

/-- The session after a part of a journey, whether or not it succeeds. -/
def go (bundle : Bundle) (s : Session) : Leg → Session
  | .next => s.next.2
  | .choose index => (s.choose index).2
  | .hop seed host evaluator before =>
    match s.hop bundle seed host evaluator before with
    | .ok other => other
    | .error _ => s

def travel (bundle : Bundle) (s : Session) (legs : List Leg) : Session :=
  legs.foldl (go bundle) s

/-- What a part of a journey uses up. -/
def used (s : Session) : Leg → List OnceEvent
  | .next => s.player.told s.story
  | .choose index => s.player.chosen s.story index
  | .hop _ _ _ _ => []

/-- The events of a journey.  As long as a choice waits, it goes on offering its options. -/
def log (bundle : Bundle) (s : Session) : List Leg → List OnceEvent
  | [] => []
  | leg :: rest =>
    s.used leg ++ (s.go bundle leg).player.offers (s.go bundle leg).story ++
      (s.go bundle leg).log bundle rest

/-- The numbers of frames do not run out on the way. -/
def NumbersLast (bundle : Bundle) (s : Session) : List Leg → Prop
  | [] => True
  | leg :: rest =>
    ((∀ seed host evaluator before, leg ≠ .hop seed host evaluator before) →
      s.player.counter ≤ (s.go bundle leg).player.counter) ∧
    (s.go bundle leg).NumbersLast bundle rest

end Session

variable {story other : Story} {script : String} {p q : Player}

/-! ## States on the way -/

structure Player.Sparing (story : Story) (p : Player) : Prop where
  ordered : p.Ordered
  sorted : Dict.Sorted p.once
  once : p.once.Proper story
  pending : ∀ c, p.pending = some c →
    ∃ f below, p.frames = f :: below ∧ c.UnusedAt story p.once f

/-- A step keeps what is known, provided that the numbers of frames last. -/
theorem Step.sparing {progress : Progress} (h : p.dispatch story = (progress, q))
    (hp : p.Sparing story) (hpending : p.pending = none) (hcounter : p.counter ≤ q.counter) :
    q.Sparing story where
  ordered := (step_of_dispatch h).restacked.renumbered.ordered hp.ordered hcounter
  sorted := (step_of_dispatch h).marked.sorted hp.sorted
  once := (step_of_dispatch h).once hp.once
  pending := fun _ hc => unusedAt_of_dispatch h hpending hc

theorem Answer.sparing {index : Nat} (h : Answer story p index q) (hp : p.Sparing story)
    (hcounter : p.counter ≤ q.counter) : q.Sparing story where
  ordered := h.restacked.renumbered.ordered hp.ordered hcounter
  sorted := h.marked.sorted hp.sorted
  once := h.once hp.once
  pending := by
    intro c hc
    rw [h.closed] at hc
    cases hc

/-- It is known at the start, where nothing has been used. -/
theorem begin_sparing {arguments : Dict Value} (h : Player.begin story script arguments = .ok p) :
    p.Sparing story := by
  have hstacked := (begin_wellFormed h).stacked
  rcases begin_eq_ok h with ⟨callee, root, locals, -, -, -, rfl⟩
  exact {
    ordered := ⟨hstacked.increasing, hstacked.numbered⟩
    sorted := List.Pairwise.nil
    once := Once.Proper.nil
    pending := fun c hc => by cases hc }

namespace Player.Sparing

/-- It is kept by a whole call. -/
theorem next (hp : p.Sparing story) (hcounter : p.counter ≤ (p.next story).2.counter) :
    (p.next story).2.Sparing story := by
  -- A call takes too few steps to pass all numbers and come back above the first one.
  rcases next_lasting hp fun _ _ _ hp hpending hdispatch hcounter =>
    Step.sparing hdispatch hp hpending hcounter with ⟨k, hk, hmoved, hkept⟩
  exact hkept (counter_lasted hk (by decide) hmoved hcounter)

/-- It is kept by an answer, valid or not. -/
theorem choose (hp : p.Sparing story) {index : Nat}
    (hcounter : p.counter ≤ (p.choose story index).2.counter) :
    (p.choose story index).2.Sparing story := by
  rcases @choose_cases story p index with hsame | hanswer
  · rw [hsame]
    exact hp
  · exact hanswer.sparing hp hcounter

/-- The choice that waits is found where it was shown. -/
theorem asked? (hp : p.Sparing story) {c : Pending} (hc : p.pending = some c) :
    ∃ f below script prompt options, Frames.upTo? c.frame p.frames = some (f, below) ∧
      f.standing? story = some (script, .choice c.node prompt options) ∧
      p.asked? story = some (c, script, options) ∧
      ∀ item ∈ onceItems options c.items,
        p.once.fired script (Once.optionKey item.id) = false := by
  rcases hp.pending c hc with ⟨f, below, hframes, hframe, script, prompt, options, hstands, hunused⟩
  have hbelow : Frames.has below f.id = false := by
    have hincreasing := hp.ordered.increasing
    rw [hframes, List.pairwise_cons] at hincreasing
    refine List.any_eq_false.2 fun g hg hsame => ?_
    have hlt := hincreasing.1 g hg
    rw [eq_of_beq hsame] at hlt
    exact UInt64.lt_irrefl _ hlt
  have hup : Frames.upTo? c.frame p.frames = some (f, below) := by
    rw [hframes, hframe]
    simp [Frames.upTo?, Frames.upTo?_eq_none hbelow]
  refine ⟨f, below, script, prompt, options, hup, hstands, ?_, hunused⟩
  simp [Player.asked?, hc, hup, hstands]

/-- What a waiting choice offers has not been used up. -/
theorem logs_offers (hp : p.Sparing story) : Once.Logs p.once (p.offers story) p.once := by
  cases hc : p.pending with
  | none =>
      have hnone : p.offers story = [] := by simp [Player.offers, Player.asked?, hc]
      rw [hnone]
      exact Once.Logs.nil (Once.Grows.refl _)
  | some c =>
      rcases hp.asked? hc with ⟨f, below, script, prompt, options, -, -, hasked, hunused⟩
      simp only [Player.offers, hasked]
      apply Once.Logs.offers
      · intro e he
        rcases List.mem_map.1 he with ⟨item, hitem, rfl⟩
        exact Bool.eq_false_iff.1 (hunused item hitem)
      · intro e he
        rcases List.mem_map.1 he with ⟨item, -, rfl⟩
        rfl

/-- An answer chooses what has not been used up, and records it. -/
theorem logs_choose (hp : p.Sparing story) (index : Nat) :
    Once.Logs p.once (p.chosen story index) (p.choose story index).2.once := by
  have hgrows : p.once.Grows (p.choose story index).2.once := by
    rcases @choose_cases story p index with hsame | hanswer
    · rw [hsame]
      exact Once.Grows.refl _
    · exact hanswer.marked.grows
  cases hchoose : p.choose story index with
  | mk result q =>
      rw [hchoose] at hgrows
      cases result with
      | error fault =>
          simp only [Player.chosen, hchoose]
          exact Once.Logs.nil hgrows
      | ok _ =>
          cases answer_of_choose (choose_eq_ok hchoose) with
          | @mk c item f below found entered option hc hitem hup hgroup hoption _ =>
              rcases hp.asked? hc with ⟨g, under, script, prompt, options, hup', hstands, hasked,
                hunused⟩
              rcases Prod.mk.inj (Option.some.inj (hup.symm.trans hup')) with ⟨rfl, rfl⟩
              -- The option that is found is one of the choice that was shown.
              cases hnode : found.2.nodes[f.node]? with
              | none => simp [hnode, Act.optionFor?] at hoption
              | some node =>
                  rcases Prod.mk.inj (Option.some.inj
                    ((Frame.standing?_eq hgroup hnode).symm.trans hstands)) with ⟨rfl, rfl⟩
                  have hfind : options.find? (fun option => option.id == item.id) = some option := by
                    simpa [hnode, Act.optionFor?] using hoption
                  simp only [Player.chosen, hchoose, hasked, hitem, Option.toList_some]
                  exact logs_chosen hgrows (List.mem_of_getElem? hitem) hunused hfind

end Player.Sparing

/-! ## Hops -/

/-- Frames at the same place stand at the same node in stories of the same scripts. -/
theorem Frame.SamePlace.standing? {f g : Frame} (h : f.SamePlace g)
    (hscripts : other.scripts = story.scripts) : g.standing? other = f.standing? story := by
  unfold Frame.standing? Story.group
  rw [hscripts, h.group, h.node]

/-- The innermost frame of a save that is read has the place of the one that was saved. -/
theorem Snapshot.Keeps.innermost {c : Pending} {f : Frame} {below : List Frame} {read : Snapshot}
    (h : (p.saveOf story c).Keeps read) (hframes : p.frames = f :: below) :
    ∃ g under, f.SamePlace g ∧ read.frames.reverse = g :: under := by
  have hplaces : List.Forall₂ Frame.SamePlace p.frames read.frames.reverse := by
    rw [← List.reverse_reverse p.frames]
    exact List.rel_reverse h.frames
  rw [hframes] at hplaces
  obtain ⟨g, under, hplace, -, htop⟩ := List.forall₂_cons_left_iff.1 hplaces
  exact ⟨g, under, hplace, htop⟩

/-- The frames of an accepted save are numbered from its innermost one on. -/
theorem Snapshot.Accepted.renumbered {s : Snapshot} {g : Frame} {under : List Frame}
    (h : s.Accepted story) (htop : s.frames.reverse = g :: under) (hg : g.id < p.counter) :
    s.restored.Ordered ∧ s.restored.counter ≤ p.counter := by
  have hgreatest : Snapshot.greatestFrame s.frames = g.id := by
    have hincreasing := h.increasing
    rw [htop] at hincreasing
    rw [← List.reverse_reverse s.frames, htop]
    exact greatestFrame_increasing hincreasing
  have hbound := p.counter.toNat_lt
  rw [UInt64.lt_iff_toNat_lt, ← hgreatest] at hg
  rcases ordered_restored h (by omega) with ⟨hordered, hcounter⟩
  refine ⟨hordered, ?_⟩
  rw [UInt64.le_iff_toNat_le, hcounter]
  exact hg

/-- A choice that is read offers at the innermost frame what was offered when it was saved. -/
theorem Pending.UnusedAt.restored {c : Pending} {f g : Frame} {under : List Frame}
    {read : Snapshot} (h : c.UnusedAt story p.once f) (hkeeps : (p.saveOf story c).Keeps read)
    (hplace : f.SamePlace g) (htop : read.frames.reverse = g :: under)
    (hscripts : other.scripts = story.scripts) :
    ∀ d, read.restored.pending = some d → d.UnusedAt other p.once g := by
  rintro d hd
  rcases h.unused with ⟨script, prompt, options, hstands, hnone⟩
  have hinnermost : read.frames.getLast? = some g := by
    rw [← List.head?_reverse, htop]
    rfl
  cases hd
  refine ⟨by simp [hinnermost], script, prompt, options, ?_, fun item hitem => ?_⟩
  · rw [hplace.standing? hscripts, hstands]
    simp [hkeeps.choice, Player.saveOf]
  · apply hnone
    simpa [hkeeps.items, Player.saveOf] using hitem

/-- A session that goes on from the text of a save knows what has been used, and offers nothing of
it.  It numbers frames from the innermost one on. -/
theorem Player.Sparing.restored {c : Pending} {read : Snapshot} (hp : p.Sparing story)
    (hc : p.pending = some c) (hscripts : other.scripts = story.scripts)
    (hdecode : Snapshot.decode (p.saveOf story c).encode = .ok read)
    (hcheck : read.check other = .ok ()) :
    read.restored.Sparing other ∧ read.restored.once = p.once ∧
      read.restored.counter ≤ p.counter := by
  have hsorted : Dict.Sorted (p.saveOf story c).once := hp.sorted.filter _
  have hkeeps := Snapshot.keeps_of_decode hsorted hdecode
  have honce : read.restored.once = p.once := by
    have hread : read.once = p.once.saved := hkeeps.once
    rw [Snapshot.restored, hread]
    exact ordered_saved hp.once
  rcases hp.pending c hc with ⟨f, below, hframes, hunused⟩
  rcases hkeeps.innermost hframes with ⟨g, under, hplace, htop⟩
  have hlast : f.id < p.counter := hp.ordered.numbered f (hframes ▸ List.mem_cons_self)
  rw [← hplace.id] at hlast
  rcases (Snapshot.check_iff.1 hcheck).renumbered htop hlast with ⟨hordered, hcounter⟩
  refine ⟨⟨hordered, honce ▸ hp.sorted, ?_, fun d hd => ?_⟩, honce, hcounter⟩
  · rw [honce]
    exact ⟨hp.once.names, hp.once.ordered, hscripts ▸ hp.once.scripts⟩
  · rw [honce]
    exact ⟨g, under, htop, hunused.restored hkeeps hplace htop hscripts d hd⟩

namespace Session

variable {bundle : Bundle} {seed : Option UInt32} {host : HostFunctions}
  {evaluator : Formula.Evaluator} {before : Player} {s t : Session} {legs : List Leg}

/-- A hop succeeds if a choice waits, its save can be read, and the other session accepts it. -/
theorem hop_eq_ok : s.hop bundle seed host evaluator before = .ok t ↔
    ∃ c read other, s.player.pending = some c ∧
      Snapshot.decode (s.player.saveOf s.story c).encode = .ok read ∧
      Story.make bundle seed host evaluator = .ok other ∧ read.check other = .ok () ∧
      ⟨other, read.restored⟩ = t := by
  cases hc : s.player.pending with
  | none => simp [hop, save, Player.snapshot, hc, Except.map, bind, Except.bind]
  | some c =>
      simp only [hop, save, snapshot_pending hc, Except.map, bind, Except.bind]
      cases hdecode : Snapshot.decode (s.player.saveOf s.story c).encode with
      | error fault => simp [hdecode]
      | ok read =>
          cases hmake : Story.make bundle seed host evaluator with
          | error fault => simp
          | ok other =>
              cases hcheck : read.check other <;>
                simp [hdecode, hcheck, resume, after, Player.resume, checked, Except.map]

/-- The journey goes on in the session that has accepted the save. -/
theorem go_of_hop (h : s.hop bundle seed host evaluator before = .ok t) :
    s.go bundle (.hop seed host evaluator before) = t := by
  simp only [go, h]

theorem log_cons (s : Session) (leg : Leg) (rest : List Leg) :
    s.log bundle (leg :: rest) = s.used leg ++
      (s.go bundle leg).player.offers (s.go bundle leg).story ++ (s.go bundle leg).log bundle rest :=
  rfl

structure Sparing (bundle : Bundle) (s : Session) : Prop where
  player : s.player.Sparing s.story
  scripts : s.story.scripts = bundle.scripts

/-- A hop changes nothing of what is recorded, and does not move the counter on. -/
theorem Sparing.hop (hs : s.Sparing bundle) (seed : Option UInt32) (host : HostFunctions)
    (evaluator : Formula.Evaluator) (before : Player) :
    (s.go bundle (.hop seed host evaluator before)).Sparing bundle ∧
      (s.go bundle (.hop seed host evaluator before)).player.once = s.player.once ∧
      (s.go bundle (.hop seed host evaluator before)).player.counter ≤ s.player.counter := by
  cases hhop : s.hop bundle seed host evaluator before with
  | error fault =>
      have hsame : s.go bundle (.hop seed host evaluator before) = s := by simp only [go, hhop]
      rw [hsame]
      exact ⟨hs, rfl, UInt64.le_refl _⟩
  | ok t =>
      rcases hop_eq_ok.1 hhop with ⟨c, read, other, hc, hdecode, hmake, hcheck, rfl⟩
      rw [go_of_hop hhop]
      have hscripts := (scripts_of_make hmake).trans hs.scripts.symm
      rcases hs.player.restored hc hscripts hdecode hcheck with ⟨hplayer, honce, hcounter⟩
      exact ⟨⟨hplayer, scripts_of_make hmake⟩, honce, hcounter⟩

/-- What is known of a session is kept on every part of a journey, and its events are recorded. -/
theorem Sparing.go (hs : s.Sparing bundle) {leg : Leg}
    (hcounter : (∀ seed host evaluator before, leg ≠ .hop seed host evaluator before) →
      s.player.counter ≤ (s.go bundle leg).player.counter) :
    (s.go bundle leg).Sparing bundle ∧
      Once.Logs s.player.once (s.used leg) (s.go bundle leg).player.once := by
  cases leg with
  | next =>
      have hlasts := hcounter fun _ _ _ _ => Leg.noConfusion
      exact ⟨⟨hs.player.next hlasts, hs.scripts⟩, logs_next s.story s.player⟩
  | choose index =>
      have hlasts := hcounter fun _ _ _ _ => Leg.noConfusion
      exact ⟨⟨hs.player.choose hlasts, hs.scripts⟩, hs.player.logs_choose index⟩
  | hop seed host evaluator before =>
      rcases hs.hop seed host evaluator before with ⟨hgone, honce, -⟩
      refine ⟨hgone, Once.Logs.nil ?_⟩
      rw [honce]
      exact Once.Grows.refl _

/-- The events of a whole journey are recorded on the way. -/
theorem Sparing.log (hs : s.Sparing bundle) (hlasts : s.NumbersLast bundle legs) :
    (s.travel bundle legs).Sparing bundle ∧
      Once.Logs s.player.once (s.log bundle legs) (s.travel bundle legs).player.once := by
  induction legs generalizing s with
  | nil => exact ⟨hs, Once.Logs.nil (Once.Grows.refl _)⟩
  | cons leg rest ih =>
      rcases hlasts with ⟨hfirst, hrest⟩
      rcases hs.go hfirst with ⟨hgone, hused⟩
      rcases ih hgone hrest with ⟨harrived, hlater⟩
      exact ⟨harrived, (hused.append hgone.player.logs_offers).append hlater⟩

theorem travel_append (s : Session) (first rest : List Leg) :
    s.travel bundle (first ++ rest) = (s.travel bundle first).travel bundle rest := by
  simp only [travel, List.foldl_append]

/-- The numbers last on both parts of a journey. -/
theorem NumbersLast.append {first rest : List Leg} (h : s.NumbersLast bundle (first ++ rest)) :
    s.NumbersLast bundle first ∧ (s.travel bundle first).NumbersLast bundle rest := by
  induction first generalizing s with
  | nil => exact ⟨trivial, h⟩
  | cons leg later ih =>
      rcases h with ⟨hfirst, hlater⟩
      rcases ih hlater with ⟨hlast, hrest⟩
      exact ⟨⟨hfirst, hlast⟩, hrest⟩

/-- The numbers last for every journey of less than `2 ^ 64 / guardLimit` parts. -/
theorem Sparing.numbersLast (hs : s.Sparing bundle)
    (h : s.player.counter.toNat + legs.length * Player.guardLimit < 2 ^ 64) :
    s.NumbersLast bundle legs := by
  induction legs generalizing s with
  | nil => trivial
  | cons leg rest ih =>
      rw [List.length_cons, Nat.add_mul] at h
      -- A leg uses as many numbers as it takes steps, and a hop makes the counter no greater.
      have hmoved : ((∀ seed host evaluator before, leg ≠ .hop seed host evaluator before) →
          s.player.counter ≤ (s.go bundle leg).player.counter) ∧
          (s.go bundle leg).player.counter.toNat ≤ s.player.counter.toNat + Player.guardLimit := by
        cases leg with
        | next =>
            rcases (next_within s.story s.player).lasts (by omega) with ⟨hle, hbound⟩
            exact ⟨fun _ => hle, hbound⟩
        | choose index =>
            have hwithin := (choose_within s.story s.player index).mono
              (show 1 ≤ Player.guardLimit by decide)
            rcases hwithin.lasts (by omega) with ⟨hle, hbound⟩
            exact ⟨fun _ => hle, hbound⟩
        | hop seed host evaluator before =>
            have hback := (hs.hop seed host evaluator before).2.2
            rw [UInt64.le_iff_toNat_le] at hback
            exact ⟨fun hno => absurd rfl (hno seed host evaluator before), by omega⟩
      exact ⟨hmoved.1, ih (hs.go hmoved.1).1 (by omega)⟩

end Session

/-! ## The result -/

/-- A story is played from the start of a script.  It may be saved whenever a choice waits, and go on
from the text of the save in any session of the same bundle, whatever becomes of its numbers on the
way.  Then texts that are to be shown once are shown at most once, options of different names that
are to be chosen once are chosen at most once and are not offered afterwards, and nothing that has
been used is forgotten.

Numbers of frames do not run out on journeys of less than `2 ^ 64 / guardLimit` parts
(`Session.Sparing.numbersLast`). -/
theorem once_only {bundle : Bundle} {seed : Option UInt32} {host : HostFunctions}
    {evaluator : Formula.Evaluator} {arguments : Dict Value}
    (hmake : Story.make bundle seed host evaluator = .ok story)
    (hbegin : Player.begin story script arguments = .ok p) (legs : List Leg)
    (hlasts : (Session.mk story p).NumbersLast bundle legs) :
    (∀ script id, ((Session.mk story p).log bundle legs).count (.told script id) ≤ 1) ∧
      (∀ script id, ((Session.mk story p).log bundle legs).count (.chosen script id) ≤ 1) ∧
      (∀ script id, ((Session.mk story p).log bundle legs).Pairwise fun earlier later =>
        earlier = .chosen script id → later ≠ .offered script id) ∧
      ∀ first rest, legs = first ++ rest →
        ((Session.mk story p).travel bundle first).player.once.Grows
          ((Session.mk story p).travel bundle legs).player.once := by
  have hs : (Session.mk story p).Sparing bundle := ⟨begin_sparing hbegin, scripts_of_make hmake⟩
  have hlogs := (hs.log hlasts).2
  refine ⟨fun script id => hlogs.count_le_one rfl, fun script id => hlogs.count_le_one rfl,
    fun script id => ?_, ?_⟩
  · apply hlogs.apart.imp
    rintro earlier later hapart rfl rfl
    exact hapart ⟨rfl, rfl, rfl⟩
  · rintro first rest rfl
    rcases hlasts.append with ⟨hfirst, hrest⟩
    have harrived := (hs.log hfirst).1
    have hgrows := (harrived.log hrest).2.grows
    rwa [Session.travel_append]

/-- In every round of a loop there is a choice; a text and one of the options are to be used once. -/
def bellTale : Story :=
  .ofScripts [
    ("main", .ofGroups "main" [] [
      ("main", [.loop "l" "true" "main.round"]),
      ("main.again", []),
      ("main.ring", [.text "u" "It rings." false]),
      ("main.round", [.text "t" "There is a bell." true, .choice "c" none [
        ⟨"r", "ring it", none, true, false, "main.ring"⟩,
        ⟨"w", "wait", none, false, false, "main.again"⟩]])])]

def bellTale.bundle : Bundle := ⟨bellTale.scripts, none, [], none⟩

/-- The state in which the choice waits in the first round. -/
def bellTale.asked : Player where
  frames := [⟨2, "main.round", 1, [], [], .whileBody, false, none⟩,
    ⟨1, "main", 0, [], [], .none, true, none⟩]
  pending := some ⟨2, "c", [⟨0, "r", "ring it"⟩, ⟨1, "w", "wait"⟩], none⟩
  ended := false
  counter := 3
  once := [("main", ["text:t"])]
  generator := bellTale.seed

def bellTale.save : Snapshot :=
  bellTale.asked.saveOf bellTale ⟨2, "c", [⟨0, "r", "ring it"⟩, ⟨1, "w", "wait"⟩], none⟩

/-- There are no variables, so nothing is lost when it is written and read again. -/
theorem bellTale.decode_save : Snapshot.decode bellTale.save.encode = .ok bellTale.save := by
  have hempty : Dict.Storable Json.ReadsBack [] := ⟨List.Pairwise.nil, by simp⟩
  have hframe : ∀ f ∈ bellTale.save.frames, f.node ≤ Json.maxSignificand ∧ f.scope = [] ∧
      f.types = [] ∧ f.continuation = none := by
    intro f hf
    rcases List.mem_pair.1 hf with rfl | rfl
    · exact ⟨by decide, rfl, rfl, rfl⟩
    · exact ⟨by decide, rfl, rfl, rfl⟩
  have hstorable : bellTale.save.Storable Json.ReadsBack := by
    refine ⟨rfl, rfl, by decide, fun f hf => ?_, fun e he => ?_, fun c hc => ?_, by decide, ?_⟩
    · rcases hframe f hf with ⟨hnode, hscope, htypes, hcontinuation⟩
      exact ⟨hnode, hscope ▸ hempty, by simp [htypes, Dict.Sorted], by simp [htypes],
        by simp [hcontinuation]⟩
    · rcases List.mem_pair.1 he with rfl | rfl <;> exact hempty
    · cases hc
    · exact List.pairwise_singleton _ _
  exact hstorable.decode_encode (by decide) .silent

/-- The bell is rung once, although the story is saved in between and the choice comes again. -/
theorem once_only_bellTale :
    (Session.mk bellTale bellTale.asked).hop bellTale.bundle none .none Formula.interpreter
        bellTale.opening =
        .ok ⟨bellTale, bellTale.asked⟩ ∧
      (Session.mk bellTale bellTale.opening).log bellTale.bundle
          [.next, .next, .hop none .none Formula.interpreter bellTale.opening, .choose 0, .next,
            .next] =
        [.told "main" "t", .offered "main" "r", .offered "main" "r", .chosen "main" "r"] ∧
      ((Session.mk bellTale bellTale.opening).log bellTale.bundle
          [.next, .next, .hop none .none Formula.interpreter bellTale.opening, .choose 0, .next,
            .next]).count (.chosen "main" "r") ≤ 1 := by
  have hmake : Story.make bellTale.bundle none .none Formula.interpreter = .ok bellTale := rfl
  have hbegin : Player.begin bellTale "main" [] = .ok bellTale.opening := rfl
  have hhop : (Session.mk bellTale bellTale.asked).hop bellTale.bundle none .none
      Formula.interpreter bellTale.opening = .ok ⟨bellTale, bellTale.asked⟩ := by
    have hcheck : bellTale.save.check bellTale = .ok () := rfl
    exact Session.hop_eq_ok.2 ⟨_, _, _, rfl, bellTale.decode_save, hmake, hcheck, rfl⟩
  have hs : (Session.mk bellTale bellTale.opening).Sparing bellTale.bundle :=
    ⟨begin_sparing hbegin, rfl⟩
  refine ⟨hhop, ?_, ?_⟩
  · -- The journey up to the save, the hop, and the journey from there on.
    have hstart : ∀ rest, (Session.mk bellTale bellTale.opening).log bellTale.bundle
        (.next :: .next :: rest) = .told "main" "t" :: .offered "main" "r" ::
          (Session.mk bellTale bellTale.asked).log bellTale.bundle rest := fun _ => rfl
    have hoffers : bellTale.asked.offers bellTale = [.offered "main" "r"] := rfl
    have hend : (Session.mk bellTale bellTale.asked).log bellTale.bundle
        [.choose 0, .next, .next] = [.chosen "main" "r"] := by decide +kernel
    rw [hstart, Session.log_cons, Session.go_of_hop hhop, hoffers, hend]
    rfl
  · exact (once_only hmake hbegin _ (hs.numbersLast (by decide))).2.1 "main" "r"

end StoryPlayer
