import StoryPlayer.Proofs.WellFormed

/-!
# What an answer means

A choice shows options and keeps only their names and texts.  An answer finds its option again by
name, among all options of the choice, and takes the first one.

- `Boundary` says which options were found to be available when a choice was shown, and
  `boundary_of_dispatch` that every choice that waits has been shown so,
- `choose_of_boundary` says which option an answer leads into,
- `honours_iff` concludes when this is the one that was shown.
-/

namespace StoryPlayer

variable {story : Story} {p q b : Player} {c : Pending} {script : String}
  {options shown : List ChoiceOption}

/-! ## Where a choice was shown -/

/-- The step from the state `b` to the state `p` shows the choice `c` of a script: the options
`shown` are found to be available, and the items of the choice are those. -/
inductive Boundary (story : Story) (b p : Player) (c : Pending) :
    String → List ChoiceOption → List ChoiceOption → Prop
  | mk {f : Frame} {below : List Frame} {found : String × Group} {prompt : Option String}
      {options shown : List ChoiceOption} {r s t : Player} :
      b.frames = f :: below → story.group f.group = .ok found →
      found.2.nodes[f.node]? = some (.choice c.node prompt options) →
      Act.offered story found.1 options b = .ok (shown, r) →
      Act.renderOptions story 0 shown r = .ok (c.items, s) →
      Act.renderOptional story prompt s = .ok (c.prompt, t) → p = { t with pending := some c } →
      b.dispatch story = (.shown c.output, p) → Boundary story b p c found.1 options shown

/-- A choice that waits after a step has been shown by it. -/
theorem boundary_of_dispatch {progress : Progress} (h : b.dispatch story = (progress, p))
    (hb : b.pending = none) (hc : p.pending = some c) :
    ∃ script options shown, Boundary story b p c script options shown := by
  have hstep := step_of_dispatch h
  have hshown : progress = .shown c.output := by
    rcases hstep.kept.pending with hsame | hnone | ⟨d, hd, hout⟩
    · simp [hsame, hb] at hc
    · simp [hnone] at hc
    · obtain rfl : d = c := Option.some.inj (hd.symm.trans hc)
      cases progress with
      | shown output => rw [Option.some.inj hout]
      | running => cases hout
      | failed fault => cases hout
  subst hshown
  -- Nothing but a choice shows a choice.
  generalize hprogress : Progress.shown c.output = progress at hstep
  cases hstep with
  | concluded _ => cases hprogress
  | groupMissing _ _ => cases hprogress
  | finished _ _ _ _ => cases hprogress
  | finishFailed _ _ _ _ => cases hprogress
  | nodeFailed _ _ _ _ => cases hprogress
  | @moved _ _ _ _ out _ hframes hgroup hnode hmove =>
      cases hmove with
      | choice hoffered _ hitems hprompt _ =>
          obtain rfl := Option.some.inj hc
          exact ⟨_, _, _, Boundary.mk hframes hgroup hnode hoffered hitems hprompt rfl h⟩
      | _ => cases hprogress

/-- The frame that shows a choice stays where it is. -/
theorem Boundary.stands (h : Boundary story b p c script options shown) :
    p.pending = some c ∧ ∃ f below group prompt, p.frames = f :: below ∧
      story.group f.group = .ok (script, group) ∧
      group.nodes[f.node]? = some (.choice c.node prompt options) := by
  cases h with
  | @mk f below found prompt _ _ r s t hframes hgroup hnode hoffered hitems hprompt hp _ =>
      subst hp
      have heval := evaluated_of_choice hoffered hitems hprompt
      rcases heval.top hframes with ⟨g, under, hg, hrevalued⟩
      have hsame : g.group = f.group ∧ g.node = f.node := by
        rw [hrevalued.same]
        exact ⟨rfl, rfl⟩
      refine ⟨rfl, g, under, found.2, prompt, hg, ?_, ?_⟩
      · rw [hsame.1]
        exact hgroup
      · rw [hsame.2]
        exact hnode

/-- The items that are shown have the names of options of the choice. -/
theorem Boundary.items (h : Boundary story b p c script options shown) :
    c.items.map ChoiceItem.id = shown.map ChoiceOption.id ∧ shown ⊆ options := by
  cases h with
  | mk _ _ _ hoffered hitems _ _ _ =>
      exact ⟨(items_of_renderOptions hitems).1, mem_of_offered hoffered⟩

/-! ## What is found again -/

/-- The option that an answer finds is the first one of its name, whatever was shown. -/
theorem choose_of_boundary {i : Nat} {o : ChoiceOption} (hp : p.WellFormed story)
    (hb : Boundary story b p c script options shown) (ho : shown[i]? = some o)
    (h : p.choose story i = (.ok (), q)) :
    ∃ first, options.find? (fun option => option.id == o.id) = some first ∧
      (∃ f below, q.frames = f :: below ∧ f.group = first.group) ∧
      q.once = if first.once then p.once.mark script (Once.optionKey o.id) else p.once := by
  rcases hb.stands with ⟨hpending, f, below, group, prompt, hframes, hgroup, hnode⟩
  rcases upTo?_pending hp hpending with ⟨f', below', hframes', hup⟩
  rcases List.cons.inj (hframes.symm.trans hframes') with ⟨rfl, rfl⟩
  cases answer_of_choose (choose_eq_ok h) with
  | @mk pending item g under found _ first hpending' hitem hplace hfound hoption _ =>
      obtain rfl : pending = c := Option.some.inj (hpending'.symm.trans hpending)
      rcases Prod.mk.inj (Option.some.inj (hplace.symm.trans hup)) with ⟨rfl, rfl⟩
      rcases Except.ok.inj (hfound.symm.trans hgroup) with rfl
      -- The item has kept the name of the option and nothing else of it.
      have hid : item.id = o.id := by
        have hids := congrArg (fun ids => ids[i]?) hb.items.1
        simpa [hitem, ho] using hids
      have hfind : options.find? (fun option => option.id == o.id) = some first := by
        simpa [Act.optionFor?, hnode, hid] using hoption
      have hname : first.id = o.id := by simpa using List.find?_some hfind
      exact ⟨first, hfind, ⟨_, _, rfl, rfl⟩, by rw [← hname]; rfl⟩

/-- If names are distinct, the first option of a name is the only one. -/
theorem find?_id_of_nodup {o : ChoiceOption} (hnodup : (options.map ChoiceOption.id).Nodup)
    (ho : o ∈ options) : options.find? (fun option => option.id == o.id) = some o := by
  induction options with
  | nil => cases ho
  | cons first rest ih =>
      rcases List.nodup_cons.1 hnodup with ⟨hnew, hrest⟩
      rcases List.mem_cons.1 ho with rfl | hlater
      · simp
      · have hne : first.id ≠ o.id := by
          intro heq
          exact hnew (heq ▸ List.mem_map_of_mem hlater)
        simp [hne, ih hrest hlater]

/-! ## Answers that mean what was shown -/

/-- The answer that has led from `p` to `q` means the option: its group runs, and that the option
has been used is recorded exactly if it is to be offered once. -/
structure Honours (script : String) (o : ChoiceOption) (p q : Player) : Prop where
  group : ∃ f below, q.frames = f :: below ∧ f.group = o.group
  once : q.once = if o.once then p.once.mark script (Once.optionKey o.id) else p.once

/-- What an answer records, if the option it finds and the one that was shown have one name. -/
theorem once_eq_iff {once : Once} {key : String} {found meant : Bool} :
    ((if found then once.mark script key else once) =
        if meant then once.mark script key else once) ↔
      found = meant ∨ once.mark script key = once := by
  cases found <;> cases meant <;> simp [eq_comm]

/-- Every choice that waits in a run has been shown in a step. -/
theorem play_boundary {arguments : Dict Value} {requests : List Request}
    (hbegin : Player.begin story script arguments = .ok p)
    (hlasts : CounterLasts story p requests) :
    (p.play story requests).WellFormed story ∧
      ∀ c, (p.play story requests).pending = some c → ∃ b script options shown,
        Boundary story b (p.play story requests) c script options shown := by
  refine play_lasting (I := fun p => p.WellFormed story ∧ ∀ c, p.pending = some c →
    ∃ b script options shown, Boundary story b p c script options shown) requests ?_ hlasts ?_ ?_
  · refine ⟨begin_wellFormed hbegin, fun c hc => ?_⟩
    rcases begin_eq_ok hbegin with ⟨_, _, _, -, -, -, rfl⟩
    cases hc
  · intro b progress q hb hpending hdispatch hcounter
    refine ⟨(step_of_dispatch hdispatch).wellFormed hb.1 hpending hcounter, fun c hc => ?_⟩
    exact ⟨b, boundary_of_dispatch hdispatch hpending hc⟩
  · -- After an answer nothing waits.
    intro p index q hp hanswer hcounter
    refine ⟨hanswer.wellFormed hp.1 hcounter, fun c hc => ?_⟩
    cases hanswer
    cases hc

/-- Every choice that waits in a run has been shown in a step.  An answer means the option that was
shown in its place exactly if the first option of the same name, visible or not, runs the same group
and is recorded in the same way; so it does if the names are different. -/
theorem honours_iff {arguments : Dict Value} {requests : List Request}
    (hbegin : Player.begin story script arguments = .ok p)
    (hlasts : CounterLasts story p requests) (hc : (p.play story requests).pending = some c) :
    (∃ b script options shown,
        Boundary story b (p.play story requests) c script options shown) ∧
      ∀ b script options shown, Boundary story b (p.play story requests) c script options shown →
        ∀ i o q, shown[i]? = some o → (p.play story requests).choose story i = (.ok (), q) →
          ∃ first, options.find? (fun option => option.id == o.id) = some first ∧
            (Honours script o (p.play story requests) q ↔
              first.group = o.group ∧ (first.once = o.once ∨
                (p.play story requests).once.mark script (Once.optionKey o.id) =
                  (p.play story requests).once)) ∧
            ((options.map ChoiceOption.id).Nodup →
              Honours script o (p.play story requests) q) := by
  rcases play_boundary hbegin hlasts with ⟨hwellFormed, hboundary⟩
  refine ⟨hboundary c hc, ?_⟩
  intro b script options shown hb i o q ho hchoose
  rcases choose_of_boundary hwellFormed hb ho hchoose with
    ⟨first, hfind, ⟨f, below, hq, hgroup⟩, honce⟩
  have hiff : Honours script o (p.play story requests) q ↔
      first.group = o.group ∧ (first.once = o.once ∨
        (p.play story requests).once.mark script (Once.optionKey o.id) =
          (p.play story requests).once) := by
    constructor
    · rintro ⟨⟨g, under, hq', hg⟩, hmarked⟩
      rcases List.cons.inj (hq.symm.trans hq') with ⟨rfl, rfl⟩
      exact ⟨hgroup.symm.trans hg, once_eq_iff.1 (honce.symm.trans hmarked)⟩
    · rintro ⟨hsame, hrecord⟩
      exact ⟨⟨f, below, hq, hgroup.trans hsame⟩, honce.trans (once_eq_iff.2 hrecord)⟩
  refine ⟨first, hfind, hiff, fun hnodup => hiff.2 ?_⟩
  -- Of different names the first one is the only one.
  have hmem : o ∈ options := hb.items.2 (List.mem_of_getElem? ho)
  obtain rfl := Option.some.inj (hfind.symm.trans (find?_id_of_nodup hnodup hmem))
  exact ⟨rfl, Or.inl rfl⟩

/-- Two options of one name; they lead into different groups, and one is to be offered once. -/
def forkTale.ways : List ChoiceOption :=
  [⟨"o", "go left", none, false, false, "main.left"⟩,
    ⟨"o", "go right", none, true, false, "main.right"⟩]

/-- A choice between them. -/
def forkTale : Story :=
  .ofScripts [
    ("main", .ofGroups "main" [] [
      ("main", [.choice "c" none forkTale.ways]),
      ("main.left", [.text "l" "left" false]),
      ("main.right", [.text "r" "right" false])])]

def forkTale.question : Pending :=
  ⟨1, "c", [⟨0, "o", "go left"⟩, ⟨1, "o", "go right"⟩], none⟩

def forkTale.asked : Player :=
  { forkTale.opening with pending := some forkTale.question }

/-- Both options were shown in their places. -/
theorem forkTale.boundary :
    Boundary forkTale forkTale.opening forkTale.asked forkTale.question "main" forkTale.ways
      forkTale.ways := by
  have hgroup : forkTale.group "main" =
      .ok ("main", ⟨"main", none, [.choice "c" none forkTale.ways]⟩) := rfl
  have hoffered : Act.offered forkTale "main" forkTale.ways forkTale.opening =
      .ok (forkTale.ways, forkTale.opening) := rfl
  have hitems : Act.renderOptions forkTale 0 forkTale.ways forkTale.opening =
      .ok (forkTale.question.items, forkTale.opening) := rfl
  have hprompt : Act.renderOptional forkTale none forkTale.opening =
      .ok (none, forkTale.opening) := rfl
  have hdispatch : forkTale.opening.dispatch forkTale =
      (.shown forkTale.question.output, forkTale.asked) := rfl
  exact Boundary.mk rfl hgroup rfl hoffered hitems hprompt rfl hdispatch

/-- The first of the two means what was shown. -/
theorem honours_iff_forkTale :
    forkTale.opening.play forkTale [.next] = forkTale.asked ∧
      ∃ o q, forkTale.ways[0]? = some o ∧ forkTale.asked.choose forkTale 0 = (.ok (), q) ∧
        Honours "main" o forkTale.asked q := by
  have hbegin : Player.begin forkTale "main" [] = .ok forkTale.opening := rfl
  have hasked : forkTale.opening.play forkTale [.next] = forkTale.asked := rfl
  have hlasts : CounterLasts forkTale forkTale.opening [.next] :=
    counterLasts_of_length _ (by decide)
  refine ⟨hasked, _, _, rfl, rfl, ?_⟩
  rcases (honours_iff hbegin hlasts rfl).2 _ _ _ _ forkTale.boundary 0 _ _ rfl rfl with
    ⟨first, hfirst, hiff, -⟩
  obtain rfl := Option.some.inj hfirst
  exact hiff.2 ⟨rfl, Or.inl rfl⟩

/-- The second one was shown as `go right`, and runs the group of the first one; that it has been
used is not recorded. -/
theorem forkTale_goes_left :
    Player.begin forkTale "main" [] = .ok forkTale.opening ∧
      forkTale.opening.play forkTale [.next] = forkTale.asked ∧
      Boundary forkTale forkTale.opening forkTale.asked forkTale.question "main" forkTale.ways
        forkTale.ways ∧
      ∃ o q, forkTale.ways[1]? = some o ∧ forkTale.asked.choose forkTale 1 = (.ok (), q) ∧
        o.group = "main.right" ∧ o.once = true ∧ ¬ Honours "main" o forkTale.asked q ∧
        q.frames.head?.map Frame.group = some "main.left" ∧ q.once = [] := by
  refine ⟨rfl, rfl, forkTale.boundary, _, _, rfl, rfl, rfl, rfl, ?_, rfl, rfl⟩
  rintro ⟨⟨f, below, hframes, hgroup⟩, -⟩
  obtain ⟨rfl, -⟩ := List.cons.inj hframes
  exact absurd hgroup (by decide)

end StoryPlayer
