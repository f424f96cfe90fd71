import StoryPlayer.Proofs.Checks
import StoryPlayer.Proofs.OnceEvents

/-!
# Saving what was restored

- `Once.PutInOrder` says how the names that have been used come back from a save,
- `snapshot_of_resume` computes the save of a state that was restored,
- `snapshot_resume` concludes that saving undoes restoring: nothing of a save is lost, what only
  repeats the frames is made anew, and a save that was made while a story was played comes back as
  it is.
-/

namespace StoryPlayer

variable {story : Story} {p before after : Player} {s : Snapshot}

/-! ## Names in order -/

namespace Once

/-- Putting names in order neither adds nor drops one. -/
theorem mem_orderKeys {name : String} {names : List String} :
    name ∈ orderKeys names ↔ name ∈ names := by
  suffices hfold : ∀ ordered, name ∈ names.foldl (fun ordered key => insertKey key ordered) ordered ↔
      name ∈ names ∨ name ∈ ordered by
    simpa [orderKeys] using hfold []
  induction names with
  | nil => simp
  | cons first rest ih =>
      intro ordered
      rw [List.foldl_cons, ih, mem_insertKey, List.mem_cons]
      constructor
      · rintro (hrest | hfirst | hordered)
        · exact Or.inl (Or.inr hrest)
        · exact Or.inl (Or.inl hfirst)
        · exact Or.inr hordered
      · rintro ((hfirst | hrest) | hordered)
        · exact Or.inr (Or.inl hfirst)
        · exact Or.inl hrest
        · exact Or.inr (Or.inr hordered)

/-- The names are in strict order, so each of them occurs once. -/
theorem pairwise_orderKeys (names : List String) : (orderKeys names).Pairwise (· < ·) := by
  unfold orderKeys
  refine List.foldlRecOn names _ List.Pairwise.nil fun ordered hordered key _ => ?_
  exact pairwise_insertKey hordered key

theorem orderKeys_isEmpty (names : List String) : (orderKeys names).isEmpty = names.isEmpty := by
  have hnone : orderKeys names = [] ↔ names = [] := by
    simp only [List.eq_nil_iff_forall_not_mem, mem_orderKeys]
  rw [Bool.eq_iff_iff, List.isEmpty_iff, List.isEmpty_iff, hnone]

/-- The second record says the same as the first one, with the names of every script in order and
each of them once, and without scripts that have none. -/
def PutInOrder (raw once : Once) : Prop :=
  List.Forall₂ (fun entry kept => kept.1 = entry.1 ∧ kept.2.Pairwise (· < ·) ∧
    ∀ name, name ∈ kept.2 ↔ name ∈ entry.2) (raw.filter fun entry => !entry.2.isEmpty) once

/-- What is saved of a record is the record put in order. -/
theorem putInOrder_saved (raw : Once) :
    raw.PutInOrder (Once.saved (raw.map fun entry => (entry.1, orderKeys entry.2))) := by
  have hsaved : Once.saved (raw.map fun entry => (entry.1, orderKeys entry.2)) =
      (raw.filter fun entry => !entry.2.isEmpty).map fun entry => (entry.1, orderKeys entry.2) := by
    unfold Once.saved
    rw [List.filter_map]
    congr 1
    refine List.filter_congr fun entry _ => ?_
    simp [orderKeys_isEmpty]
  unfold PutInOrder
  rw [hsaved, List.forall₂_map_right_iff]
  refine List.forall₂_same.2 fun entry _ => ?_
  exact ⟨rfl, pairwise_orderKeys entry.2, fun name => mem_orderKeys⟩

end Once

/-! ## Saves -/

/-- The save with what is made anew of it: the parts that repeat the frames, and the names that have
been used. -/
def Snapshot.remade (s : Snapshot) (once : Once) : Snapshot :=
  { s with
    cursor := Snapshot.cursorOf s.frames
    scopes := Snapshot.scopesOf s.frames
    continuations := Snapshot.continuationsOf s.frames
    once := once }

/-- A save is resumed exactly if the check accepts it, and the state is what the save describes. -/
theorem resume_eq_ok : before.resume story s = (.ok (), after) ↔
    s.check story = .ok () ∧ s.restored = after := by
  unfold Player.resume
  cases s.check story <;> simp

/-- What is saved of a restored state: of a save that was accepted, all that is not kept in the state
has but one value. -/
theorem snapshot_of_resume (h : before.resume story s = (.ok (), after)) :
    after.snapshot story = .ok (s.remade
      (Once.saved (s.once.map fun entry => (entry.1, Once.orderKeys entry.2)))) := by
  rcases resume_eq_ok.1 h with ⟨hcheck, rfl⟩
  have haccepted := Snapshot.check_iff.1 hcheck
  simp only [Player.snapshot, Snapshot.restored, Snapshot.remade, List.reverse_reverse,
    haccepted.schema, haccepted.version, haccepted.waiting]

/-- A save of a state in which all names are in order is not changed by being restored. -/
theorem remade_saveOf {c : Pending} (h : p.once.Proper story) :
    (p.saveOf story c).remade (Once.saved
      ((p.saveOf story c).once.map fun entry => (entry.1, Once.orderKeys entry.2))) =
        p.saveOf story c := by
  have honce : Once.saved (p.once.saved.map fun entry => (entry.1, Once.orderKeys entry.2)) =
      p.once.saved := by
    rw [ordered_saved h]
  simp only [Snapshot.remade, Player.saveOf, honce]

/-- Whatever is played, the names that have been used stay in order. -/
theorem play_once {script : String} {arguments : Dict Value}
    (hbegin : Player.begin story script arguments = .ok p) (requests : List Request) :
    (p.play story requests).once.Proper story := by
  refine play_keeps requests ?_ (fun _ _ _ hp _ hstep => hstep.once hp)
    fun _ _ _ hp hanswer => hanswer.once hp
  rcases begin_eq_ok hbegin with ⟨callee, root, locals, -, -, -, rfl⟩
  exact Once.Proper.nil

/-- Saving undoes restoring.

Of a save that is accepted everything comes back, but what only repeats the frames is made anew and
the names that have been used are put in order.  A save that was made while a story was played comes
back as it is, whoever accepts it.  What repeats the frames is not looked at. -/
theorem snapshot_resume :
    (∀ (story : Story) (s : Snapshot) (before after : Player),
      before.resume story s = (.ok (), after) →
      ∃ once, Once.PutInOrder s.once once ∧ after.snapshot story = .ok (s.remade once)) ∧
    (∀ (story other : Story) (script : String) (arguments : Dict Value) (p : Player)
        (requests : List Request) (s : Snapshot) (before after : Player),
      Player.begin story script arguments = .ok p →
      (p.play story requests).snapshot story = .ok s →
      before.resume other s = (.ok (), after) → after.snapshot other = .ok s) ∧
    ∀ (story : Story) (s : Snapshot) (before : Player) (cursor : Cursor)
        (scopes : List ScopeEntry) (continuations : List Continuation),
      before.resume story { s with cursor, scopes, continuations } = before.resume story s := by
  refine ⟨?_, ?_, fun _ _ _ _ _ _ => rfl⟩
  · intro story s before after hresume
    exact ⟨_, Once.putInOrder_saved s.once, snapshot_of_resume hresume⟩
  · intro story other script arguments p requests s before after hbegin hsave hresume
    have honce := play_once hbegin requests
    cases hpending : (p.play story requests).pending with
    | none => simp [Player.snapshot, hpending] at hsave
    | some c =>
        rw [snapshot_pending hpending] at hsave
        cases hsave
        rw [snapshot_of_resume hresume, remade_saveOf honce]

/-! ## An example -/

/-- A choice in a script that is called, where a text has been shown before. -/
def ledgerTale : Story :=
  .ofScripts [
    ("inn", .ofGroups "inn" [] [
      ("inn", [.text "t" "hello" true,
        .choice "c" none [⟨"o", "go on", none, false, false, "inn.o"⟩]]),
      ("inn.o", [])]),
    ("main", .ofGroups "main" [] [("main", [.call "k" "inn" []])])]

/-- A save that somebody has written: what repeats the frames is wrong, and names are listed in
disorder and repeatedly. -/
def ledgerTale.save : Snapshot where
  schema := Snapshot.currentSchema
  version := ledgerTale.version
  cursor := ⟨["nowhere"], 7⟩
  frames := [⟨3, "main", 0, [], [], .none, true, none⟩,
    ⟨8, "inn", 1, [], [], .none, true, some ⟨3, 1, []⟩⟩]
  scopes := []
  continuations := []
  rng := 7
  waiting := true
  choice := "c"
  items := [⟨0, "o", "turn back"⟩]
  prompt := some "Well?"
  once := [("inn", ["text:t", "option:o", "text:t"]), ("main", [])]

theorem snapshot_resume_ledgerTale :
    Once.saved ledgerTale.save.restored.once = [("inn", ["option:o", "text:t"])] ∧
      (∃ once, Once.PutInOrder ledgerTale.save.once once ∧
        ledgerTale.save.restored.snapshot ledgerTale = .ok (ledgerTale.save.remade once)) ∧
      ∃ s, (ledgerTale.opening.play ledgerTale [.next, .next]).snapshot ledgerTale = .ok s ∧
        s.once = [("inn", ["text:t"])] ∧ s.restored.snapshot (ledgerTale.reseed 5) = .ok s := by
  have hresume : (Player.fresh 5).resume ledgerTale ledgerTale.save =
      (.ok (), ledgerTale.save.restored) := rfl
  have hbegin : Player.begin ledgerTale "main" [] = .ok ledgerTale.opening := rfl
  have hpending : (ledgerTale.opening.play ledgerTale [.next, .next]).pending =
      some ⟨2, "c", [⟨0, "o", "go on"⟩], none⟩ := by decide +kernel
  refine ⟨by decide, snapshot_resume.1 _ _ _ _ hresume, _, snapshot_pending hpending,
    by decide +kernel, ?_⟩
  exact snapshot_resume.2.1 ledgerTale (ledgerTale.reseed 5) "main" [] _ [.next, .next] _
    (Player.fresh 5) _ hbegin (snapshot_pending hpending) rfl

end StoryPlayer
