import StoryPlayer.Player.Save
import StoryPlayer.Proofs.Typing

/-!
# Type safety

In every state of a story that was started or restored, all variables of all frames have values of
their types.

- A save that passes its check describes frames whose variables have values of their types:
  `typed_of_check`,
- `next_typed` and `choose_typed` carry this over single requests, whether or not they succeed,
- `play_typed` states it for whole runs.

The numbers of frames play no part in it, so the runs may be of any length.
-/

namespace StoryPlayer

variable {story : Story} {p q : Player}

/-! ## Saves -/

namespace Snapshot

/-- Variables that pass the check have values of their types. -/
theorem typed_of_checkScope {f : Frame} {scope : Dict Value} (h : checkScope f scope = .ok ()) :
    ∀ entry ∈ scope, ∃ type, Dict.get? f.types entry.1 = some type ∧
      Value.fits type entry.2 = true := by
  induction scope with
  | nil =>
      intro entry hentry
      cases hentry
  | cons first rest ih =>
      simp only [checkScope] at h
      cases htype : Dict.get? f.types first.1 with
      | none => simp [htype] at h
      | some type =>
          by_cases hfits : Value.fits type first.2 = true
          · simp only [htype, hfits, if_true] at h
            intro entry hentry
            rcases List.mem_cons.1 hentry with rfl | hlater
            · exact ⟨type, htype, hfits⟩
            · exact ih h entry hlater
          · simp [htype, hfits] at h

theorem typed_of_checkFrame {below : List UInt64} {f : Frame}
    (h : checkFrame story below f = .ok ()) : f.Typed := by
  -- The variables are checked after the place of the frame and before its continuation.
  unfold checkFrame at h
  split at h
  · cases h
  · split at h
    · cases h
    · split at h
      · cases h
      · next hscope => exact typed_of_checkScope hscope

theorem typed_of_checkFrames {below : List UInt64} {frames : List Frame}
    (h : checkFrames story below frames = .ok ()) : ∀ f ∈ frames, f.Typed := by
  induction frames generalizing below with
  | nil =>
      intro f hf
      cases hf
  | cons first rest ih =>
      simp only [checkFrames] at h
      split at h
      · cases h
      · split at h
        · cases h
        · next hfirst =>
          intro f hf
          rcases List.mem_cons.1 hf with rfl | hlater
          · exact typed_of_checkFrame hfirst
          · exact ih h f hlater

/-- So have those of an accepted stack. -/
theorem typed_of_checkStack {frames : List Frame} (h : checkStack story frames = .ok ()) :
    ∀ f ∈ frames, f.Typed := by
  unfold checkStack at h
  split at h
  · cases h
  · split at h
    · exact typed_of_checkFrames h
    · cases h

/-- A test that would have refused the save. -/
theorem ok_of_unless {refused : Prop} [Decidable refused] {fault : Fault}
    {rest : Except Fault Unit}
    (h : (if refused then throw fault >>= fun _ : PUnit => rest else rest) = .ok ()) :
    rest = .ok () := by
  split at h
  · cases h
  · exact h

/-- A save is taken over only if the variables of all its frames have values of their types. -/
theorem typed_of_check {s : Snapshot} (h : s.check story = .ok ()) : s.restored.Typed := by
  rcases ok_of_bind (ok_of_unless (ok_of_unless (ok_of_unless (ok_of_unless h)))) with ⟨_, -, hrest⟩
  rcases ok_of_bind hrest with ⟨_, hstack, -⟩
  intro f hf
  exact typed_of_checkStack hstack f (List.mem_reverse.1 hf)

end Snapshot

/-- A resumed story is typed. -/
theorem resume_typed {before : Player} {s : Snapshot} (h : before.resume story s = (.ok (), p)) :
    p.Typed := by
  unfold Player.resume at h
  split at h
  · next hcheck =>
    cases h
    exact Snapshot.typed_of_check hcheck
  · cases h

/-! ## Runs -/

/-- By induction on the steps of the call. -/
theorem next_typed (hproper : story.Proper) (hp : p.Typed) : (p.next story).2.Typed := by
  have hstep : ∀ (_ : Nat) q progress r, Player.Typed q → q.pending = none →
      q.dispatch story = (progress, r) → r.Typed := by
    intro _ q progress r hq _ hdispatch
    exact (step_of_dispatch hdispatch).typed hproper hq
  rcases @next_counted story p (fun _ q => q.Typed) hp hstep with ⟨_, -, htyped⟩
  exact htyped

/-- An answer keeps all types, whether or not it succeeds. -/
theorem choose_typed (index : Nat) (hp : p.Typed) : (p.choose story index).2.Typed := by
  rcases @choose_cases story p index with hsame | hanswer
  · rw [hsame]
    exact hp
  · exact hanswer.typed hp

/-- Whatever is asked of a story that was started with arguments it accepts, or restored from a save
that it accepts, every variable of every frame has a declared type and a value of this type. -/
theorem play_typed (hproper : story.Proper)
    (hstart : (∃ script arguments, Player.begin story script arguments = .ok p) ∨
      ∃ before s, Player.resume story s before = (.ok (), p))
    (requests : List Request) : (p.play story requests).Typed := by
  have hp : p.Typed := by
    rcases hstart with ⟨script, arguments, hbegin⟩ | ⟨before, s, hresume⟩
    · exact begin_typed hproper hbegin
    · exact resume_typed hresume
  clear hstart
  induction requests generalizing p with
  | nil => exact hp
  | cons request rest ih =>
      cases request with
      | next => exact ih (next_typed hproper hp)
      | choose index => exact ih (choose_typed index hp)

/-- A variable is declared, and an option gives it the value of a parameter. -/
def portraitTale : Story :=
  .ofScripts [
    ("main", .ofGroups "main" [⟨"title", .primitive .string, false⟩] [
      ("main", [.declare "v" ⟨"mood", .primitive .string, some "\"calm\""⟩,
        .choice "c" none [⟨"o", "go on", none, false, false, "main.o"⟩]]),
      ("main.o", [.code "k" "mood = title;", .text "t" "${mood}" false])])]

def portraitTale.begun : Player :=
  (Player.fresh portraitTale.seed).push
    (Player.rootFrame "main" ⟨[("title", .text "dawn")], [("title", .primitive .string)]⟩ none)

/-- A save with a value that no run gives to the variable. -/
def portraitTale.save : Snapshot where
  schema := Snapshot.currentSchema
  version := portraitTale.version
  cursor := ⟨["main"], 1⟩
  frames := [{
    id := 1
    group := "main"
    node := 1
    scope := [("mood", .text "stormy"), ("title", .text "dusk")]
    types := [("mood", .primitive .string), ("title", .primitive .string)]
    completion := .none
    root := true
    continuation := none }]
  scopes := []
  continuations := []
  rng := 7
  waiting := true
  choice := "c"
  items := [⟨0, "o", "go on"⟩]
  prompt := none
  once := []

/-- A run and a resumed save, through a declaration and an assignment. -/
theorem play_typed_portraitTale :
    (portraitTale.begun.play portraitTale [.next, .choose 0, .next]).frames.map
        (fun f => Dict.keys f.scope) = [[], ["mood", "title"]] ∧
      (portraitTale.begun.play portraitTale [.next, .choose 0, .next]).Typed ∧
      (portraitTale.save.restored.play portraitTale [.choose 0, .next]).frames.map
        (fun f => Dict.keys f.scope) = [[], ["mood", "title"]] ∧
      (portraitTale.save.restored.play portraitTale [.choose 0, .next]).Typed := by
  have hproper : portraitTale.Proper := by
    intro entry hentry param hparam
    rcases List.mem_singleton.1 hentry with rfl
    rcases List.mem_singleton.1 hparam with rfl
    exact ScriptType.Proper.primitive _
  have hbegin : Player.begin portraitTale "main" [("title", .text "dawn")] =
      .ok portraitTale.begun := rfl
  have hresume : (Player.fresh 5).resume portraitTale portraitTale.save =
      (.ok (), portraitTale.save.restored) := rfl
  exact ⟨by decide +kernel, play_typed hproper (Or.inl ⟨_, _, hbegin⟩) _, by decide +kernel,
    play_typed hproper (Or.inr ⟨_, _, hresume⟩) _⟩

end StoryPlayer
