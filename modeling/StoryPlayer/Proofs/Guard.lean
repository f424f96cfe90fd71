import StoryPlayer.Proofs.References
import StoryPlayer.Proofs.Retry

/-!
# The limit on steps

A call of `Player.next` gives up after `Player.guardLimit` steps without anything to show.  Nothing
is put back then, and the next call goes on from there.

- `Concludes` is a call without a limit, with the number of its steps,
- `Player.nextAfter` is a call that comes after a number of other ones,
- `calls_of_runs` cuts steps in a row into calls, `concludes_of_calls` joins calls that give up,
- `guard_transparent` concludes that the limit loses nothing and repeats nothing.
-/

namespace StoryPlayer

variable {story : Story} {p q r s : Player} {n m k : Nat} {progress : Progress} {fault : Fault}
  {result : Except Fault Output}

/-! ## Calls without a limit -/

/-- What a call ends with when it takes the step; nothing if it goes on. -/
def Progress.result? : Progress → Option (Except Fault Output)
  | .running => none
  | .shown output => some (.ok output)
  | .failed fault => some (.error fault)

/-- Playing on to the next thing to show, without a limit, ends after a number of steps.  If a choice
waits, or if the story is over, no step is taken. -/
inductive Concludes (story : Story) (p : Player) : Nat → Except Fault Output → Player → Prop
  | waiting {c : Pending} : p.pending = some c → Concludes story p 0 (.ok c.output) p
  | ended : p.pending = none → p.ended = true → Concludes story p 0 (.ok .ended) p
  | stepped {n : Nat} {q r : Player} {progress : Progress} {result : Except Fault Output} :
      p.pending = none → p.ended = false → Runs story n p q →
      q.dispatch story = (progress, r) → progress.result? = some result →
      Concludes story p (n + 1) result r

/-- What a call comes to after a number of other calls. -/
def Player.nextAfter (story : Story) (p : Player) (calls : Nat) : Except Fault Output × Player :=
  (p.play story (List.replicate calls .next)).next story

theorem nextAfter_zero : p.nextAfter story 0 = p.next story := rfl

theorem nextAfter_succ : p.nextAfter story (k + 1) = (p.next story).2.nextAfter story k := rfl

/-! ## Steps in a row -/

/-- Steps that follow each other are steps. -/
theorem Runs.append (h : Runs story n p q) (h' : Runs story m q r) : Runs story (n + m) p r := by
  induction h with
  | refl p => rwa [Nat.zero_add]
  | @step n p q s hrun _ ih =>
      rw [Nat.add_right_comm]
      exact Runs.step hrun (ih h')

/-- A run can be cut after any number of its steps. -/
theorem Runs.split (h : Runs story (n + m) p r) : ∃ q, Runs story n p q ∧ Runs story m q r := by
  induction n generalizing p with
  | zero =>
      rw [Nat.zero_add] at h
      exact ⟨p, Runs.refl p, h⟩
  | succ n ih =>
      rw [Nat.add_right_comm] at h
      cases h with
      | step hrun hrest =>
          rcases ih hrest with ⟨q, hfirst, hsecond⟩
          exact ⟨q, Runs.step hrun hfirst, hsecond⟩

/-- A story that is over stays so. -/
theorem Player.Open.dispatch_over (hp : p.Open) (hended : p.ended = true) :
    p.dispatch story = (.shown .ended, p) := by
  have hstop : p.stop = p := by rw [Player.stop, ← hended]
  simp only [Player.dispatch, hp.ended hended, hstop]

/-- Only a story that goes on takes a step that shows nothing. -/
theorem Runs.going (h : Runs story n p r) (hn : 0 < n) (hp : p.Open) : p.ended = false := by
  by_contra hover
  cases h with
  | refl _ => exact absurd hn (Nat.lt_irrefl 0)
  | step hrun _ =>
      rw [hp.dispatch_over (by simpa using hover)] at hrun
      cases hrun

/-- A call of a story that is going on is its steps up to the limit. -/
theorem next_of_going (hp : p.Open) (hended : p.ended = false) :
    p.next story = p.steps story Player.guardLimit := by
  simp [Player.next, hp.pending, hended]

/-- A call that ends within its limit. -/
theorem next_of_runs (hp : p.Open) (hruns : Runs story n p q) (hn : n < Player.guardLimit)
    (hlast : q.dispatch story = (progress, r)) (hresult : progress.result? = some result) :
    p.next story = (result, r) := by
  by_cases hended : p.ended = true
  · -- The story is over already, so that is all the call can say.
    have hover : p.dispatch story = (.shown .ended, p) := hp.dispatch_over hended
    cases hruns with
    | step hrun _ => cases hover.symm.trans hrun
    | refl _ =>
        obtain ⟨rfl, rfl⟩ := Prod.mk.inj (hover.symm.trans hlast)
        obtain rfl := Option.some.inj hresult
        simp [Player.next, hp.pending, hended]
  · rcases Nat.exists_eq_add_of_lt hn with ⟨rest, hlimit⟩
    rw [next_of_going hp (by simpa using hended), hlimit, Nat.add_assoc, steps_of_runs hruns]
    cases progress with
    | running => cases hresult
    | shown output =>
        obtain rfl := Option.some.inj hresult
        simp only [Player.steps, hlast]
    | failed fault =>
        obtain rfl := Option.some.inj hresult
        simp only [Player.steps, hlast]

/-- A call that gives up. -/
theorem next_of_guarded (hp : p.Open) (hruns : Runs story Player.guardLimit p q) :
    p.next story = (.error (.guardExceeded Player.guardLimit), q) := by
  rw [next_of_going hp (hruns.going (by decide) hp)]
  exact steps_of_runs hruns 0

/-! ## From a run without a limit to calls -/

/-- Steps in a row are made by calls that give up, one for each time that the limit is reached, and
by a last one. -/
theorem calls_of_runs (hp : p.Open) (hruns : Runs story n p q)
    (hlast : q.dispatch story = (progress, r)) (hresult : progress.result? = some result) :
    (∀ i < n / Player.guardLimit,
        (p.nextAfter story i).1 = .error (.guardExceeded Player.guardLimit)) ∧
      p.nextAfter story (n / Player.guardLimit) = (result, r) := by
  have hpos : 0 < Player.guardLimit := by decide
  induction n using Nat.strong_induction_on generalizing p with
  | _ n ih =>
      by_cases hn : n < Player.guardLimit
      · rw [Nat.div_eq_of_lt hn]
        exact ⟨fun i hi => absurd hi (Nat.not_lt_zero i), next_of_runs hp hruns hn hlast hresult⟩
      · obtain ⟨m, rfl⟩ := Nat.exists_eq_add_of_le (Nat.le_of_not_lt hn)
        rcases hruns.split with ⟨s, hfirst, hrest⟩
        have hcall := next_of_guarded hp hfirst
        -- The rest of the steps is made by the calls after the first one.
        rcases ih m (by omega) (hfirst.open hp) hrest with ⟨hguarded, hend⟩
        rw [Nat.add_div_left m hpos]
        constructor
        · intro i hi
          cases i with
          | zero => rw [nextAfter_zero, hcall]
          | succ i =>
              rw [nextAfter_succ, hcall]
              exact hguarded i (Nat.lt_of_succ_lt_succ hi)
        · rw [nextAfter_succ, hcall]
          exact hend

/-- The calls in between give up, and the last one ends as playing on without a limit does. -/
theorem Concludes.calls (h : Concludes story p n result q) :
    (∀ i < (n - 1) / Player.guardLimit,
        (p.nextAfter story i).1 = .error (.guardExceeded Player.guardLimit)) ∧
      p.nextAfter story ((n - 1) / Player.guardLimit) = (result, q) := by
  cases h with
  | waiting hc =>
      refine ⟨fun i hi => absurd hi (Nat.not_lt_zero i), ?_⟩
      change p.next story = _
      simp [Player.next, hc]
  | ended hpending hended =>
      refine ⟨fun i hi => absurd hi (Nat.not_lt_zero i), ?_⟩
      change p.next story = _
      simp [Player.next, hpending, hended]
  | stepped hpending hended hruns hlast hresult =>
      exact calls_of_runs (.of_going hpending hended) hruns hlast hresult

/-! ## From calls to a run without a limit -/

/-- The call has given up, as its fault says. -/
def GaveUp (result : Except Fault Output) : Prop :=
  ∃ fault, result = .error fault ∧ fault.code = (Fault.guardExceeded Player.guardLimit).code

/-- A call ends within its limit, or it gives up when that is reached. -/
theorem next_ending (h : p.next story = (result, q)) :
    (∃ n ≤ Player.guardLimit, Concludes story p n result q) ∨
      (p.Open ∧ p.ended = false ∧ Runs story Player.guardLimit p q ∧
        result = .error (.guardExceeded Player.guardLimit)) := by
  unfold Player.next at h
  cases hpending : p.pending with
  | some c =>
      rw [hpending] at h
      cases h
      exact Or.inl ⟨0, Nat.zero_le _, Concludes.waiting hpending⟩
  | none =>
      simp only [hpending] at h
      by_cases hended : p.ended = true
      · rw [if_pos hended] at h
        cases h
        exact Or.inl ⟨0, Nat.zero_le _, Concludes.ended hpending hended⟩
      · rw [if_neg hended] at h
        have hgoing : p.ended = false := by simpa using hended
        -- Running out of steps is the one ending that is not a conclusion.
        cases steps_ending h with
        | guarded hruns =>
            exact Or.inr ⟨.of_going hpending hgoing, hgoing, hruns, rfl⟩
        | shown hn hruns hlast =>
            exact Or.inl ⟨_, hn, Concludes.stepped hpending hgoing hruns hlast rfl⟩
        | failed hn hruns hlast =>
            exact Or.inl ⟨_, hn, Concludes.stepped hpending hgoing hruns hlast rfl⟩

/-- A fault comes from the last step. -/
theorem Concludes.failed (h : Concludes story p n (.error fault) q) :
    ∃ r : Player, r.Open ∧ r.dispatch story = (.failed fault, q) := by
  generalize hfault : (Except.error fault : Except Fault Output) = result at h
  cases h with
  | waiting _ => cases hfault
  | ended _ _ => cases hfault
  | @stepped _ r _ progress _ hpending hended hruns hlast hresult =>
      refine ⟨r, hruns.open (.of_going hpending hended), ?_⟩
      cases progress with
      | running => cases hresult
      | shown output => cases (Option.some.inj hresult).trans hfault.symm
      | failed other =>
          obtain rfl := Except.error.inj ((Option.some.inj hresult).trans hfault.symm)
          exact hlast

/-- Handing parameters back does not fail with the fault of a call that gives up. -/
theorem writeBack_ne_guard {scope : Dict Value} {refs : Dict String} {frames frames' : List Frame}
    (h : Frames.writeBack story scope refs frames = (.error fault, frames')) :
    fault.code ≠ (Fault.guardExceeded Player.guardLimit).code := by
  induction refs generalizing frames with
  | nil => cases h
  | cons binding rest ih =>
      simp only [Frames.writeBack] at h
      split at h
      · cases h
        simp [Fault.code]
      · split at h
        · next hwrite =>
          cases h
          cases writeFault_of_writePath hwrite <;> simp [Fault.code]
        · exact ih h

/-- A step that fails with the fault of a call that gives up, which a function of the host may raise,
fails so in every later call. -/
theorem nextAfter_of_stuck (hp : p.Open) (h : p.dispatch story = (.failed fault, q))
    (hcode : fault.code = (Fault.guardExceeded Player.guardLimit).code) :
    q.nextAfter story k = (.error fault, q) := by
  rcases failed_cases hp h with ⟨-, -, rfl⟩ | ⟨-, hbroken⟩
  · have hnext : q.next story = (.error fault, q) :=
      next_of_runs hp (Runs.refl q) (by decide) h rfl
    induction k with
    | zero => rw [nextAfter_zero, hnext]
    | succ k ih => rw [nextAfter_succ, hnext, ih]
  · cases hbroken with
    | mk _ _ _ _ hback => exact absurd hcode (writeBack_ne_guard hback)

/-- Steps are put in front of a call without a limit. -/
theorem Concludes.after (hp : p.Open) (hended : p.ended = false) (hruns : Runs story m p s)
    (h : Concludes story s n result q) : Concludes story p (m + (n - 1) + 1) result q := by
  have hs := hruns.open hp
  cases h with
  | waiting hc => simp [hs.pending] at hc
  | ended _ hover =>
      exact Concludes.stepped hp.pending hended hruns (hs.dispatch_over hover) rfl
  | stepped _ _ hrest hlast hresult =>
      exact Concludes.stepped hp.pending hended (hruns.append hrest) hlast hresult

/-- Calls that give up and then one that does not are pieces of one play without a limit. -/
theorem concludes_of_calls (hguarded : ∀ i < k, GaveUp (p.nextAfter story i).1)
    (hcall : p.nextAfter story k = (result, q)) (hresult : ¬ GaveUp result) :
    ∃ n, Concludes story p n result q ∧ (n - 1) / Player.guardLimit = k := by
  have hpos : 0 < Player.guardLimit := by decide
  -- The first call takes all of its steps; the others start where it has left off.
  induction k generalizing p with
  | zero =>
      rcases next_ending hcall with ⟨n, hn, hconcludes⟩ | ⟨-, -, -, rfl⟩
      · exact ⟨n, hconcludes, Nat.div_eq_of_lt (by omega)⟩
      · exact absurd ⟨_, rfl, rfl⟩ hresult
  | succ k ih =>
      rcases hguarded 0 (Nat.succ_pos k) with ⟨fault, hfirst, hcode⟩
      rw [nextAfter_succ] at hcall
      have hlater : ∀ i < k, GaveUp ((p.next story).2.nextAfter story i).1 :=
        fun i hi => hguarded (i + 1) (Nat.succ_lt_succ hi)
      have hnext : p.next story = (.error fault, (p.next story).2) := next_eq_mk hfirst
      generalize (p.next story).2 = s at hcall hlater hnext
      rcases next_ending hnext with ⟨n, -, hconcludes⟩ | ⟨hp, hended, hruns, -⟩
      · -- The first call has met a fault of its own, and so does every later one.
        rcases hconcludes.failed with ⟨r, hr, hlast⟩
        rw [nextAfter_of_stuck hr hlast hcode] at hcall
        exact absurd ⟨fault, (Prod.mk.inj hcall).1.symm, hcode⟩ hresult
      · obtain ⟨n, hrest, hcount⟩ := ih hlater hcall
        refine ⟨_, Concludes.after hp hended hruns hrest, ?_⟩
        rw [Nat.add_sub_cancel, Nat.add_div_left _ hpos, hcount]

/-- The limit on steps loses nothing and repeats nothing.  If some calls give up and the next one does
not, a call without a limit ends in the same way and in the same state.  If a call without a limit
ends after `n` steps, calls give up once for every full limit before the last step, and then one
ends in the same way and in the same state. -/
theorem guard_transparent (story : Story) (p : Player) :
    (∀ k result q, (∀ i < k, GaveUp (p.nextAfter story i).1) →
        p.nextAfter story k = (result, q) → ¬ GaveUp result →
        ∃ n, Concludes story p n result q ∧ (n - 1) / Player.guardLimit = k) ∧
      ∀ n result q, Concludes story p n result q →
        (∀ i < (n - 1) / Player.guardLimit,
            (p.nextAfter story i).1 = .error (.guardExceeded Player.guardLimit)) ∧
          p.nextAfter story ((n - 1) / Player.guardLimit) = (result, q) :=
  ⟨fun _ _ _ hguarded hcall hresult => concludes_of_calls hguarded hcall hresult,
    fun _ _ _ hconcludes => hconcludes.calls⟩

/-- Choices without options, which are passed over, and then a text. -/
def idleTale.nodes (n : Nat) : List Node :=
  List.replicate n (.choice "c" none []) ++ [.text "t" "done" false]

def idleTale (n : Nat) : Story :=
  .ofScripts [("main", .ofGroups "main" [] [("main", idleTale.nodes n)])]

/-- The group of the script is found whatever the number of its nodes. -/
theorem idleTale.group (n : Nat) :
    (idleTale n).group "main" = .ok ("main", ⟨"main", none, idleTale.nodes n⟩) := rfl

def idleTale.at (n i : Nat) : Player :=
  { (idleTale n).opening with
    frames := (idleTale n).opening.frames.map fun f => { f with node := i } }

/-- Every choice takes a step that shows nothing. -/
theorem idleTale.passes {n i : Nat} (hi : i < n) :
    (idleTale.at n i).dispatch (idleTale n) = (.running, idleTale.at n (i + 1)) := by
  have hnode : (idleTale.nodes n)[i]? = some (.choice "c" none []) := by
    rw [idleTale.nodes, List.getElem?_append_left (by simpa using hi), List.getElem?_replicate,
      if_pos hi]
  change Player.dispatch (idleTale n) ⟨[_], _, _, _, _, _⟩ = _
  simp only [Player.dispatch, Player.rootFrame, idleTale.group, hnode]
  rfl

/-- Each of these nodes is passed over in one step. -/
theorem idleTale.runs (n : Nat) : Runs (idleTale n) n (idleTale n).opening (idleTale.at n n) := by
  suffices hruns : ∀ i ≤ n, Runs (idleTale n) i (idleTale n).opening (idleTale.at n i) from
    hruns n (Nat.le_refl n)
  intro i hi
  induction i with
  | zero => exact Runs.refl _
  | succ i ih => exact (ih (Nat.le_of_succ_le hi)).append (Runs.step (idleTale.passes hi) (.refl _))

/-- The text is shown by the step after them. -/
theorem idleTale.shows (n : Nat) :
    (idleTale.at n n).dispatch (idleTale n) = (.shown (.text "done"), idleTale.at n (n + 1)) := by
  have hnode : (idleTale.nodes n)[n]? = some (.text "t" "done" false) := by
    simp [idleTale.nodes]
  change Player.dispatch (idleTale n) ⟨[_], _, _, _, _, _⟩ = _
  simp only [Player.dispatch, Player.rootFrame, idleTale.group, hnode]
  rfl

/-- A full limit of choices is passed over by a call that gives up; the next call shows the text.  The
two together are a call without a limit. -/
theorem guard_transparent_idleTale :
    ∃ q, Concludes (idleTale 10000) (idleTale 10000).opening 10001 (.ok (.text "done")) q ∧
      (((idleTale 10000).opening.nextAfter (idleTale 10000) 0).1 =
          .error (.guardExceeded Player.guardLimit) ∧
        (idleTale 10000).opening.nextAfter (idleTale 10000) 1 = (.ok (.text "done"), q)) ∧
      ∃ n, Concludes (idleTale 10000) (idleTale 10000).opening n (.ok (.text "done")) q ∧
        (n - 1) / Player.guardLimit = 1 := by
  have hconcludes := Concludes.stepped rfl rfl (idleTale.runs 10000) (idleTale.shows 10000) rfl
  rcases guard_transparent (idleTale 10000) (idleTale 10000).opening with ⟨hjoined, hcut⟩
  rcases hcut _ _ _ hconcludes with ⟨hguarded, hlast⟩
  refine ⟨_, hconcludes, ⟨hguarded 0 (by decide), hlast⟩, ?_⟩
  refine hjoined 1 _ _ (fun i hi => ?_) hlast ?_
  · obtain rfl : i = 0 := Nat.lt_one_iff.1 hi
    exact ⟨_, hguarded 0 (by decide), rfl⟩
  · rintro ⟨fault, hfault, -⟩
    cases hfault

end StoryPlayer
