import StoryPlayer.Proofs.OnceEvents

/-!
# What a choice offers

When a choice is entered, its options are looked at one after the other, and looking at one of them
may change what the next one sees.

- `Finds` says what one look at an option finds,
- `Sifts` are the looks at several options, with those that are kept,
- `Offers` are the looks a choice takes, and what it offers in the end,
- `offer_exact` concludes what is shown, what waits for an answer, and how the frames stand then.
-/

namespace StoryPlayer

variable {story : Story} {script node : String} {prompt text : Option String} {p q r : Player}
  {options shown : List ChoiceOption} {items : List ChoiceItem}

/-! ## Looking at options -/

/-- A look at the option takes the state `p` to another one and finds out whether it is available: it
has not been used up, and its condition holds if it has one. -/
inductive Finds (story : Story) (script : String) (o : ChoiceOption) (p : Player) :
    Bool → Player → Prop
  | usedUp : o.once = true → p.once.fired script (Once.optionKey o.id) = true →
      Finds story script o p false p
  | always : (o.once = true → p.once.fired script (Once.optionKey o.id) = false) →
      o.condition = none → Finds story script o p true p
  | tested {source : String} {holds : Bool} {q : Player} :
      (o.once = true → p.once.fired script (Once.optionKey o.id) = false) →
      o.condition = some source → Act.condition story source p = .ok (holds, q) →
      Finds story script o p holds q

/-- Options are looked at one after the other, from the state `p` on; those that are found to be
available are kept. -/
inductive Sifts (story : Story) (script : String) :
    Player → List ChoiceOption → List ChoiceOption → Player → Prop
  | nil {p : Player} : Sifts story script p [] [] p
  | kept {p q r : Player} {o : ChoiceOption} {rest passed : List ChoiceOption} :
      Finds story script o p true q → Sifts story script q rest passed r →
      Sifts story script p (o :: rest) (o :: passed) r
  | dropped {p q r : Player} {o : ChoiceOption} {rest passed : List ChoiceOption} :
      Finds story script o p false q → Sifts story script q rest passed r →
      Sifts story script p (o :: rest) passed r

/-- The options that are not kept for the case that nothing else is available. -/
def ChoiceOption.ordinary (options : List ChoiceOption) : List ChoiceOption :=
  options.filter fun o => !o.fallOver

/-- What a choice offers that is entered in the state `p`.  Only if no ordinary option is available,
the first one to fall back on is looked at, and no other one. -/
inductive Offers (story : Story) (script : String) (options : List ChoiceOption) (p : Player) :
    List ChoiceOption → Player → Prop
  | ordinary {passed : List ChoiceOption} {q : Player} :
      Sifts story script p (ChoiceOption.ordinary options) passed q → passed ≠ [] →
      Offers story script options p passed q
  | fallBack {last : ChoiceOption} {q r : Player} :
      Sifts story script p (ChoiceOption.ordinary options) [] q →
      options.find? ChoiceOption.fallOver = some last → Finds story script last q true r →
      Offers story script options p [last] r
  | refused {last : ChoiceOption} {q r : Player} :
      Sifts story script p (ChoiceOption.ordinary options) [] q →
      options.find? ChoiceOption.fallOver = some last → Finds story script last q false r →
      Offers story script options p [] r
  | nothing {q : Player} :
      Sifts story script p (ChoiceOption.ordinary options) [] q →
      options.find? ChoiceOption.fallOver = none → Offers story script options p [] q

/-- The look at an option is the one that the rules describe. -/
theorem finds_of_available {o : ChoiceOption} {found : Bool}
    (h : Act.available story script o p = .ok (found, q)) : Finds story script o p found q := by
  rcases Act.bind_eq_ok.1 h with ⟨_, _, hget, hrest⟩
  rcases Act.get_eq_ok.1 hget with ⟨rfl, rfl⟩
  by_cases hused : (o.once && p.once.fired script (Once.optionKey o.id)) = true
  · rw [if_pos hused] at hrest
    rcases Act.pure_eq_ok.1 hrest with ⟨rfl, rfl⟩
    rcases Bool.and_eq_true_iff.1 hused with ⟨honce, hfired⟩
    exact Finds.usedUp honce hfired
  · rw [if_neg hused] at hrest
    have hunused : o.once = true → p.once.fired script (Once.optionKey o.id) = false := by
      intro honce
      simpa [honce] using hused
    cases hcondition : o.condition with
    | none =>
        simp only [hcondition] at hrest
        rcases Act.pure_eq_ok.1 hrest with ⟨rfl, rfl⟩
        exact Finds.always hunused hcondition
    | some source =>
        simp only [hcondition] at hrest
        exact Finds.tested hunused hcondition hrest

/-- Options are sifted in order, each formula after those before it. -/
theorem sifts_of_filterAvailable
    (h : Act.filterAvailable story script options p = .ok (shown, q)) :
    Sifts story script p options shown q := by
  induction options generalizing p q shown with
  | nil =>
      rcases Act.pure_eq_ok.1 h with ⟨rfl, rfl⟩
      exact Sifts.nil
  | cons o rest ih =>
      rcases Act.bind_eq_ok.1 h with ⟨here, r, hhere, hrest⟩
      rcases Act.bind_eq_ok.1 hrest with ⟨others, _, hothers, hreturn⟩
      rcases Act.pure_eq_ok.1 hreturn with ⟨rfl, rfl⟩
      cases here with
      | true => exact Sifts.kept (finds_of_available hhere) (ih hothers)
      | false => exact Sifts.dropped (finds_of_available hhere) (ih hothers)

/-- What is offered follows the rules: ordinary options, or the first to fall back on. -/
theorem offers_of_offered (h : Act.offered story script options p = .ok (shown, q)) :
    Offers story script options p shown q := by
  rcases Act.bind_eq_ok.1 h with ⟨passed, r, hpassed, hrest⟩
  have hsifts := sifts_of_filterAvailable hpassed
  cases passed with
  | cons o others =>
      rcases Act.pure_eq_ok.1 hrest with ⟨rfl, rfl⟩
      exact Offers.ordinary hsifts (List.cons_ne_nil o others)
  -- No option has passed, so the first one to fall over to gets its chance.
  | nil =>
      simp only [List.isEmpty_nil, if_true] at hrest
      cases hlast : options.find? ChoiceOption.fallOver with
      | none =>
          simp only [hlast] at hrest
          rcases Act.pure_eq_ok.1 hrest with ⟨rfl, rfl⟩
          exact Offers.nothing hsifts hlast
      | some last =>
          simp only [hlast] at hrest
          cases sifts_of_filterAvailable hrest with
          | kept hfinds hnil =>
              cases hnil
              exact Offers.fallBack hsifts hlast hfinds
          | dropped hfinds hnil =>
              cases hnil
              exact Offers.refused hsifts hlast hfinds

/-- Options that pass keep their order. -/
theorem Sifts.sublist {passed : List ChoiceOption} (h : Sifts story script p options passed q) :
    passed.Sublist options := by
  induction h with
  | nil => exact List.Sublist.refl []
  | kept _ _ ih => exact ih.cons_cons _
  | dropped _ _ ih => exact ih.cons _

/-- The options are offered in the order in which they were declared. -/
theorem Offers.sublist (h : Offers story script options p shown q) : shown.Sublist options := by
  cases h with
  | ordinary hsifts _ => exact hsifts.sublist.trans List.filter_sublist
  | fallBack _ hlast _ => exact List.singleton_sublist.2 (List.mem_of_find?_eq_some hlast)
  | refused _ _ _ => exact List.nil_sublist options
  | nothing _ _ => exact List.nil_sublist options

/-! ## What is shown -/

/-- The item stands for the option; its text was rendered on the way from the state `p`. -/
def ChoiceItem.Renders (story : Story) (p : Player) (o : ChoiceOption) (item : ChoiceItem) : Prop :=
  item.id = o.id ∧ ∃ q r, p.Evaluated q ∧ Act.render story o.text q = .ok (item.text, r)

/-- Items are shown in order, with the texts of their options. -/
theorem renders_of_renderOptions {index : Nat}
    (h : Act.renderOptions story index shown q = .ok (items, r)) (hq : p.Evaluated q) :
    List.Forall₂ (ChoiceItem.Renders story p) shown items := by
  induction shown generalizing index q r items with
  | nil =>
      rcases Act.pure_eq_ok.1 h with ⟨rfl, -⟩
      exact List.Forall₂.nil
  | cons o rest ih =>
      rcases Act.bind_eq_ok.1 h with ⟨text, s, htext, hrest⟩
      rcases Act.bind_eq_ok.1 hrest with ⟨others, _, hothers, hreturn⟩
      rcases Act.pure_eq_ok.1 hreturn with ⟨rfl, -⟩
      have hs : p.Evaluated s := hq.trans ((Act.evaluates_render story _).ok htext)
      exact List.Forall₂.cons ⟨rfl, q, s, hq, htext⟩ (ih hothers hs)

/-- Formulas leave all cursors where they are. -/
theorem Frames.Revalued.nodes {fs gs : List Frame} (h : Frames.Revalued fs gs) :
    gs.map Frame.node = fs.map Frame.node := by
  have houtlines := congrArg (List.map Frame.node) h.outlines
  rwa [List.map_map, List.map_map] at houtlines

/-- A choice is shown and waits: the items stand for the options in their order, with their places as
numbers, and no cursor has moved. -/
structure ChoiceOpened (story : Story) (node : String) (prompt : Option String)
    (shown : List ChoiceOption) (p : Player) (items : List ChoiceItem) (text : Option String)
    (q : Player) : Prop where
  some : shown ≠ []
  renders : List.Forall₂ (ChoiceItem.Renders story p) shown items
  numbered : items.map ChoiceItem.index = List.range items.length
  rendersPrompt : ∃ r s, p.Evaluated r ∧ Act.renderOptional story prompt r = .ok (text, s)
  pending : ∃ f below, q.frames = f :: below ∧ q.pending = .some ⟨f.id, node, items, text⟩
  unmoved : q.frames.map Frame.node = p.frames.map Frame.node

/-- A choice is passed over: the innermost frame has moved on by one node and no other one has moved.
Nothing waits for an answer, as choices are entered only while nothing does. -/
structure ChoicePassed (story : Story) (shown : List ChoiceOption) (p q : Player) : Prop where
  none : shown = []
  moved : ∃ f g below under, p.frames = f :: below ∧ q.frames = g :: under ∧
    g.node = f.node + 1 ∧ under.map Frame.node = below.map Frame.node
  pending : q.pending = p.pending
  idle : ∀ n first, first.pending = .none → Runs story n first p → q.pending = .none

/-- A choice that offers something opens with these items and waits. -/
theorem choiceOpened_of_offered {f : Frame} {below : List Frame} {s t : Player}
    (hoffered : Act.offered story script options p = .ok (shown, r)) (hshown : shown ≠ [])
    (hitems : Act.renderOptions story 0 shown r = .ok (items, s))
    (hprompt : Act.renderOptional story prompt s = .ok (text, t)) (hframes : t.frames = f :: below) :
    ChoiceOpened story node prompt shown p items text
      { t with pending := some ⟨f.id, node, items, text⟩ } := by
  have hr : p.Evaluated r := (Act.evaluates_offered story _ _).ok hoffered
  have hs : p.Evaluated s := hr.trans ((Act.evaluates_renderOptions story _ _).ok hitems)
  have ht : p.Evaluated t := evaluated_of_choice hoffered hitems hprompt
  rcases items_of_renderOptions hitems with ⟨hids, hindices⟩
  have hlength : items.length = shown.length := by simpa using congrArg List.length hids
  refine ⟨hshown, renders_of_renderOptions hitems hr, ?_, ⟨s, t, hs, hprompt⟩,
    ⟨f, below, hframes, rfl⟩, ht.frames.nodes⟩
  rw [hindices, hlength, List.range_eq_range']

/-- While steps show nothing, nothing waits. -/
theorem Runs.idle {n : Nat} (h : Runs story n p q) (hp : p.pending = none) : q.pending = none := by
  induction h with
  | refl p => exact hp
  | step hrun _ ih => exact ih (pending_of_running hrun hp)

/-- A choice that offers nothing is passed over. -/
theorem choicePassed_of_offered {f : Frame} {below : List Frame}
    (hoffered : Act.offered story script options p = .ok ([], r)) (hframes : r.frames = f :: below) :
    ChoicePassed story [] p { r with frames := f.advanced :: below } := by
  have hr : p.Evaluated r := (Act.evaluates_offered story _ _).ok hoffered
  rcases hr.cons hframes with ⟨g, under, hp, hhead, hbelow⟩
  have hnode : f.advanced.node = g.node + 1 := by rw [hhead.same]; rfl
  refine ⟨rfl, ⟨g, f.advanced, under, below, hp, rfl, hnode, hbelow.nodes⟩, hr.pending, ?_⟩
  intro n first hfirst hruns
  exact hr.pending.trans (hruns.idle hfirst)

/-- A choice that is entered shows exactly the options that are found to be available, in their order,
and waits for an answer to just these; a choice that finds none is passed over. -/
theorem offer_exact {out : Option Output}
    (h : Act.offer story script node prompt options p = .ok (out, q)) :
    ∃ shown r, Offers story script options p shown r ∧ shown.Sublist options ∧
      (∀ o ∈ shown, o.once = true → p.once.fired script (Once.optionKey o.id) = false) ∧
      match out with
      | some output => ∃ items text, output = .choices items text ∧
          ChoiceOpened story node prompt shown p items text q
      | none => ChoicePassed story shown p q := by
  cases move_of_offer h with
  | choice hoffered hshown hitems hprompt hframes =>
      have hoffers := offers_of_offered hoffered
      exact ⟨_, _, hoffers, hoffers.sublist, fun o ho => unfired_of_offered hoffered ho, _, _, rfl,
        choiceOpened_of_offered hoffered hshown hitems hprompt hframes⟩
  | choiceOver hoffered hframes =>
      have hoffers := offers_of_offered hoffered
      exact ⟨_, _, hoffers, hoffers.sublist, fun o ho => unfired_of_offered hoffered ho,
        choicePassed_of_offered hoffered hframes⟩

/-- Of these ways one has a condition that fails, and one is to be used once. -/
def gateTale.ways : List ChoiceOption :=
  [⟨"a", "knock", some "false", false, false, "main.a"⟩,
    ⟨"z", "leave", none, false, true, "main.z"⟩,
    ⟨"b", "open", some "true", true, false, "main.b"⟩]

/-- None of these ways is open, not even the one to fall back on. -/
def gateTale.walls : List ChoiceOption :=
  [⟨"a", "knock", some "false", false, false, "main.a"⟩,
    ⟨"z", "leave", some "false", false, true, "main.z"⟩]

def gateTale : Story :=
  .ofScripts [("main", .ofGroups "main" [] [
    ("main", [.choice "c" none gateTale.ways, .choice "d" (some "Hurry!") gateTale.walls]),
    ("main.a", []), ("main.b", []), ("main.z", [])])]

/-- The state at the start of the story, if the gate has been opened before. -/
def gateTale.opened : Player :=
  { gateTale.opening with once := [("main", [Once.optionKey "b"])] }

/-- When the gate has been opened before, there is nothing left but to leave; between walls there is no
way at all. -/
theorem offer_exact_gateTale :
    (∃ shown r q, Act.offer gateTale "main" "c" none gateTale.ways gateTale.opened =
        .ok (some (.choices [⟨0, "z", "leave"⟩] none), q) ∧
      Offers gateTale "main" gateTale.ways gateTale.opened shown r ∧
      ChoiceOpened gateTale "c" none shown gateTale.opened [⟨0, "z", "leave"⟩] none q) ∧
    (∃ shown r q, Act.offer gateTale "main" "d" (some "Hurry!") gateTale.walls gateTale.opened =
        .ok (none, q) ∧
      Offers gateTale "main" gateTale.walls gateTale.opened shown r ∧
      ChoicePassed gateTale shown gateTale.opened q) := by
  have hways : Act.offer gateTale "main" "c" none gateTale.ways gateTale.opened =
      .ok (some (.choices [⟨0, "z", "leave"⟩] none), _) := rfl
  have hwalls : Act.offer gateTale "main" "d" (some "Hurry!") gateTale.walls gateTale.opened =
      .ok (none, _) := rfl
  rcases offer_exact hways with ⟨shown, r, hoffers, -, -, items, text, houtput, hopened⟩
  rcases offer_exact hwalls with ⟨shown', r', hoffers', -, -, hpassed⟩
  cases houtput
  exact ⟨⟨shown, r, _, hways, hoffers, hopened⟩, ⟨shown', r', _, hwalls, hoffers', hpassed⟩⟩

end StoryPlayer
