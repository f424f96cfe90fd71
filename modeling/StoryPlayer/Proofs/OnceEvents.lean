import Mathlib.Data.List.Nodup
import StoryPlayer.Proofs.Choosing
import StoryPlayer.Proofs.Numbering

/-!
# What happens to things that are used once

A text or an option may be marked to be used once.

- `OnceEvent` is what happens to such a thing; `Player.told`, `Player.offers` and `Player.chosen`
  read the events off a call,
- `Once.Logs` relates the events of a time to what is recorded before and after it; times that
  follow each other can be joined,
- `logs_next` is about texts: a call shows nothing that has been used up, and records what it shows,
- `unusedAt_of_dispatch` and `logs_chosen` are about options: a choice that is shown offers nothing
  that has been used up, and an answer to it records what it chooses.
-/

namespace StoryPlayer

/-! ## What is recorded -/

namespace Once

variable {once before during after : Once} {script key : String}

/-- Inserting a name adds it and nothing else. -/
theorem mem_insertKey {name : String} {names : List String} :
    name ∈ insertKey key names ↔ name = key ∨ name ∈ names := by
  refine ⟨mem_of_mem_insertKey, ?_⟩
  induction names with
  | nil => simp [insertKey]
  | cons first rest ih =>
      simp only [insertKey]
      split
      · simp
      · split
        · next hsame =>
          rintro (rfl | hold)
          · exact hsame ▸ List.mem_cons_self
          · exact hold
        · intro hname
          rw [List.mem_cons] at hname ⊢
          rcases hname with hnew | hfirst | hrest
          · exact Or.inr (ih (Or.inl hnew))
          · exact Or.inl hfirst
          · exact Or.inr (ih (Or.inr hrest))

/-- A name has been used if it is the one that is marked, or was used before. -/
theorem fired_mark {other name : String} :
    (once.mark script key).fired other name = true ↔
      (other = script ∧ name = key) ∨ once.fired other name = true := by
  by_cases hscript : script = other
  · subst hscript
    simp [fired, keys, mark, Dict.get?_insert, mem_insertKey]
  · have hother : other ≠ script := Ne.symm hscript
    simp [fired, keys, mark, Dict.get?_insert, hscript, hother]

/-- Whatever has been used before has been used after. -/
def Grows (before after : Once) : Prop :=
  ∀ script key, before.fired script key = true → after.fired script key = true

namespace Grows

theorem refl (once : Once) : Grows once once := fun _ _ h => h

theorem trans (h : Grows before during) (h' : Grows during after) : Grows before after :=
  fun script key hfired => h' script key (h script key hfired)

end Grows

/-- Marking forgets nothing. -/
theorem Marked.grows {story : Story} (h : before.Marked story after) : before.Grows after := by
  rcases h with rfl | ⟨script, key, -, rfl⟩
  · exact Grows.refl _
  · intro other name hfired
    exact fired_mark.2 (Or.inr hfired)

end Once

/-! ## Events -/

inductive OnceEvent
  /-- A text of a script is shown. -/
  | told (script id : String)
  /-- An option of a script is offered. -/
  | offered (script id : String)
  /-- An option of a script is chosen. -/
  | chosen (script id : String)
  deriving DecidableEq, Repr

namespace OnceEvent

def script : OnceEvent → String
  | told script _ => script
  | offered script _ => script
  | chosen script _ => script

/-- The name under which it is recorded that the thing has been used. -/
def key : OnceEvent → String
  | told _ id => Once.textKey id
  | offered _ id => Once.optionKey id
  | chosen _ id => Once.optionKey id

def usesUp : OnceEvent → Bool
  | offered _ _ => false
  | _ => true

/-- The thing of the event has been used. -/
def Fired (e : OnceEvent) (once : Once) : Prop :=
  once.fired e.script e.key = true

/-- The later event is about something that the earlier one has used up. -/
def Repeats (later earlier : OnceEvent) : Prop :=
  earlier.usesUp = true ∧ later.script = earlier.script ∧ later.key = earlier.key

/-- What repeats a use concerns a thing that has been used. -/
theorem Repeats.fired {later earlier : OnceEvent} {once : Once} (h : later.Repeats earlier)
    (hfired : earlier.Fired once) : later.Fired once := by
  rcases h with ⟨-, hscript, hkey⟩
  rw [Fired, hscript, hkey]
  exact hfired

end OnceEvent

/-- The events happen while the record changes: none is about something that was used before, what
is used up is recorded, and nothing is used again. -/
structure Once.Logs (before : Once) (events : List OnceEvent) (after : Once) : Prop where
  grows : before.Grows after
  fresh : ∀ e ∈ events, ¬ e.Fired before
  recorded : ∀ e ∈ events, e.usesUp = true → e.Fired after
  apart : events.Pairwise fun earlier later => ¬ later.Repeats earlier

namespace Once.Logs

variable {before during after : Once} {events more : List OnceEvent} {e : OnceEvent}

/-- Nothing happens while the record may grow. -/
theorem nil (h : before.Grows after) : Logs before [] after :=
  ⟨h, by simp, by simp, List.Pairwise.nil⟩

/-- One event, of a thing that is used then and was not before. -/
theorem single (hgrows : before.Grows after) (hfresh : ¬ e.Fired before) (hfired : e.Fired after) :
    Logs before [e] after := by
  refine ⟨hgrows, fun d hd => ?_, fun d hd _ => ?_, List.pairwise_singleton _ _⟩
  · rw [List.mem_singleton.1 hd]
    exact hfresh
  · rw [List.mem_singleton.1 hd]
    exact hfired

/-- Events that use nothing up are recorded nowhere. -/
theorem offers {once : Once} (hfresh : ∀ e ∈ events, ¬ e.Fired once)
    (hkeeps : ∀ e ∈ events, e.usesUp = false) : Logs once events once := by
  refine ⟨Grows.refl once, hfresh, fun e he huses => ?_, ?_⟩
  · rw [hkeeps e he] at huses
    cases huses
  · apply List.pairwise_of_forall_mem_list
    intro earlier hearlier later _ hrepeats
    have huses := hrepeats.1
    rw [hkeeps earlier hearlier] at huses
    cases huses

/-- What was used up at first is recorded in between, so it does not happen again later. -/
theorem append (h : Logs before events during) (h' : Logs during more after) :
    Logs before (events ++ more) after where
  grows := h.grows.trans h'.grows
  fresh := by
    intro e he hfired
    rcases List.mem_append.1 he with hfirst | hlater
    · exact h.fresh e hfirst hfired
    · exact h'.fresh e hlater (h.grows _ _ hfired)
  recorded := by
    intro e he huses
    rcases List.mem_append.1 he with hfirst | hlater
    · exact h'.grows _ _ (h.recorded e hfirst huses)
    · exact h'.recorded e hlater huses
  apart := by
    refine List.pairwise_append.2 ⟨h.apart, h'.apart, ?_⟩
    intro earlier hearlier later hlater hrepeats
    have hfired := h.recorded earlier hearlier hrepeats.1
    exact h'.fresh later hlater (hrepeats.fired hfired)

/-- A thing is used up at most once. -/
theorem count_le_one (h : Logs before events after) (huses : e.usesUp = true) :
    events.count e ≤ 1 := by
  by_contra hcount
  have htwice : (List.replicate 2 e).Sublist events :=
    List.replicate_sublist_iff.2 (Nat.lt_of_not_le hcount)
  have hapart := List.rel_of_pairwise_cons (h.apart.sublist htwice) (List.mem_singleton_self e)
  exact hapart ⟨huses, rfl, rfl⟩

end Once.Logs

/-! ## Where events come from -/

/-- The node that the frame stands at, and the script that it belongs to. -/
def Frame.standing? (story : Story) (f : Frame) : Option (String × Node) :=
  match story.group f.group with
  | .error _ => none
  | .ok (script, group) => group.nodes[f.node]?.map fun node => (script, node)

/-- The items that stand for options to be chosen at most once, in a choice whose options have
different names. -/
def onceItems (options : List ChoiceOption) (items : List ChoiceItem) : List ChoiceItem :=
  if (options.map ChoiceOption.id).Nodup then
    items.filter fun item => options.any fun option => option.id == item.id && option.once
  else []

namespace Player

/-- The text to be shown at most once that the next step shows. -/
def toldNext (story : Story) (p : Player) : List OnceEvent :=
  match (p.dispatch story).1, p.frames.head?.bind (Frame.standing? story) with
  | .shown (.text _), some (script, .text id _ true) => [.told script id]
  | _, _ => []

/-- The text to be shown at most once that the next steps show, at most `fuel` of them. -/
def toldIn (story : Story) : Nat → Player → List OnceEvent
  | 0, _ => []
  | fuel + 1, p =>
    p.toldNext story ++
      match p.dispatch story with
      | (.running, q) => toldIn story fuel q
      | _ => []

/-- The text to be shown at most once that a call of `next` shows. -/
def told (story : Story) (p : Player) : List OnceEvent :=
  match p.pending with
  | some _ => []
  | none => if p.ended then [] else p.toldIn story guardLimit

/-- The choice that waits, with its script and all of its options. -/
def asked? (story : Story) (p : Player) : Option (Pending × String × List ChoiceOption) :=
  match p.pending with
  | none => none
  | some c =>
    match Frames.upTo? c.frame p.frames with
    | none => none
    | some (f, _) =>
      match f.standing? story with
      | some (script, .choice _ _ options) => some (c, script, options)
      | _ => none

/-- The options to be chosen at most once that are offered by the choice that waits. -/
def offers (story : Story) (p : Player) : List OnceEvent :=
  match p.asked? story with
  | some (c, script, options) =>
    (onceItems options c.items).map fun item => .offered script item.id
  | none => []

/-- The option to be chosen at most once that an answer chooses. -/
def chosen (story : Story) (p : Player) (index : Nat) : List OnceEvent :=
  match (p.choose story index).1, p.asked? story with
  | .ok _, some (c, script, options) =>
    (onceItems options c.items[index]?.toList).map fun item => .chosen script item.id
  | _, _ => []

end Player

variable {story : Story} {script : String} {p q : Player}

/-- A frame stands at the node that its place in the group says. -/
theorem Frame.standing?_eq {f : Frame} {found : String × Group} {node : Node}
    (hgroup : story.group f.group = .ok found) (hnode : found.2.nodes[f.node]? = some node) :
    f.standing? story = some (found.1, node) := by
  simp [Frame.standing?, hgroup, hnode]

/-- The options to be watched: offered, to be used once, and of distinct names. -/
theorem mem_onceItems {options : List ChoiceOption} {items : List ChoiceItem} {item : ChoiceItem} :
    item ∈ onceItems options items ↔ (options.map ChoiceOption.id).Nodup ∧ item ∈ items ∧
      ∃ option ∈ options, option.id = item.id ∧ option.once = true := by
  unfold onceItems
  split
  · next hnodup => simp [hnodup]
  · next hnodup => simp [hnodup]

/-! ## Texts -/

/-- A text that is shown at most once has not been shown before, and it is recorded that it has been
now. -/
theorem logs_dispatch {progress : Progress} (h : p.dispatch story = (progress, q)) :
    Once.Logs p.once (p.toldNext story) q.once := by
  have hstep := step_of_dispatch h
  have hgrows := hstep.marked.grows
  unfold Player.toldNext
  rw [h]
  split
  · next shown owner id value heq hstands =>
    obtain rfl : progress = .shown (.text shown) := heq
    generalize hprogress : Progress.shown (.text shown) = progress at hstep
    -- Of all steps only that of a text node shows a text.
    cases hstep with
    | @moved f below found node out _ hframes hgroup hnode hmove =>
        rw [hframes] at hstands
        rcases Prod.mk.inj (Option.some.inj ((Frame.standing?_eq hgroup hnode).symm.trans hstands))
          with ⟨rfl, rfl⟩
        cases hmove with
        | textUsed _ _ => cases hprogress
        | @text _ _ _ _ r _ _ hunused hrender _ =>
            apply Once.Logs.single hgrows
            · simpa [OnceEvent.Fired, OnceEvent.script, OnceEvent.key] using hunused
            · exact Once.fired_mark.2 (Or.inl ⟨rfl, rfl⟩)
    | _ => cases hprogress
  · exact Once.Logs.nil hgrows

/-- By induction on the fuel: each step logs at most the text it shows. -/
theorem logs_steps (story : Story) (fuel : Nat) (p : Player) :
    Once.Logs p.once (p.toldIn story fuel) (p.steps story fuel).2.once := by
  induction fuel generalizing p with
  | zero => exact Once.Logs.nil (Once.Grows.refl _)
  | succ fuel ih =>
      cases hdispatch : p.dispatch story with
      | mk progress q =>
          have hfirst := logs_dispatch hdispatch
          simp only [Player.toldIn, Player.steps, hdispatch]
          cases progress with
          | running => exact hfirst.append (ih q)
          | shown output => simpa using hfirst
          | failed fault => simpa using hfirst

/-- A call logs the once texts that it shows. -/
theorem logs_next (story : Story) (p : Player) :
    Once.Logs p.once (p.told story) (p.next story).2.once := by
  unfold Player.told Player.next
  cases p.pending with
  | some c => exact Once.Logs.nil (Once.Grows.refl _)
  | none =>
      by_cases hended : p.ended = true
      · simp only [hended, if_true]
        exact Once.Logs.nil (Once.Grows.refl _)
      · simp only [hended]
        exact logs_steps story Player.guardLimit p

/-! ## Options that are offered -/

/-- An option that is available and to be used once has not been used. -/
theorem unfired_of_available {option : ChoiceOption}
    (h : Act.available story script option p = .ok (true, q)) (honce : option.once = true) :
    p.once.fired script (Once.optionKey option.id) = false := by
  rcases Act.bind_eq_ok.1 h with ⟨_, _, hget, hrest⟩
  rcases Act.get_eq_ok.1 hget with ⟨rfl, rfl⟩
  cases hfired : p.once.fired script (Once.optionKey option.id) with
  | false => rfl
  | true =>
      simp only [honce, hfired] at hrest
      rcases Act.pure_eq_ok.1 hrest with ⟨hfalse, -⟩
      cases hfalse

/-- So has none that passes the sift. -/
theorem unfired_of_filterAvailable {options shown : List ChoiceOption} {option : ChoiceOption}
    (h : Act.filterAvailable story script options p = .ok (shown, q)) (hoption : option ∈ shown)
    (honce : option.once = true) : p.once.fired script (Once.optionKey option.id) = false := by
  induction options generalizing p q shown with
  | nil =>
      rcases Act.pure_eq_ok.1 h with ⟨rfl, -⟩
      cases hoption
  | cons first rest ih =>
      rcases Act.bind_eq_ok.1 h with ⟨here, r, hhere, hrest⟩
      rcases Act.bind_eq_ok.1 hrest with ⟨others, _, hothers, hreturn⟩
      rcases Act.pure_eq_ok.1 hreturn with ⟨hshown, -⟩
      -- The condition of the first option leaves what is recorded as it was.
      have hsame : r.once = p.once := ((Act.evaluates_available story _ _).ok hhere).once
      rw [← hsame]
      rw [← hshown] at hoption
      split at hoption
      · next htrue =>
        rcases List.mem_cons.1 hoption with rfl | hlater
        · rw [hsame]
          exact unfired_of_available (htrue ▸ hhere) honce
        · exact ih hothers hlater
      · exact ih hothers hoption

/-- Nothing is offered that has been used up. -/
theorem unfired_of_offered {options shown : List ChoiceOption} {option : ChoiceOption}
    (h : Act.offered story script options p = .ok (shown, q)) (hoption : option ∈ shown)
    (honce : option.once = true) : p.once.fired script (Once.optionKey option.id) = false := by
  rcases Act.bind_eq_ok.1 h with ⟨ordinary, r, hordinary, hrest⟩
  have hsame : r.once = p.once := ((Act.evaluates_filterAvailable story _ _).ok hordinary).once
  split at hrest
  · cases hfind : options.find? ChoiceOption.fallOver with
    | none =>
        simp only [hfind] at hrest
        rcases Act.pure_eq_ok.1 hrest with ⟨rfl, -⟩
        cases hoption
    | some last =>
        simp only [hfind] at hrest
        rw [← hsame]
        exact unfired_of_filterAvailable hrest hoption honce
  · rcases Act.pure_eq_ok.1 hrest with ⟨rfl, -⟩
    exact unfired_of_filterAvailable hordinary hoption honce

/-- The choice belongs to the frame, and what it offers has not been used up. -/
structure Pending.UnusedAt (story : Story) (once : Once) (c : Pending) (f : Frame) : Prop where
  frame : c.frame = f.id
  unused : ∃ script prompt options, f.standing? story = some (script, .choice c.node prompt options) ∧
    ∀ item ∈ onceItems options c.items, once.fired script (Once.optionKey item.id) = false

/-- A choice that is shown offers nothing that has been used up. -/
theorem unusedAt_of_dispatch {progress : Progress} {c : Pending}
    (h : p.dispatch story = (progress, q)) (hp : p.pending = none) (hc : q.pending = some c) :
    ∃ f below, q.frames = f :: below ∧ c.UnusedAt story q.once f := by
  rcases (step_of_dispatch h).offeredAt hp hc with ⟨f, below, hframes, hoffered⟩
  rcases boundary_of_dispatch h hp hc with ⟨script, options, shown, hboundary⟩
  rcases hboundary.stands with ⟨-, g, under, group, prompt, hframes', hgroup, hnode⟩
  rcases List.cons.inj (hframes.symm.trans hframes') with ⟨rfl, rfl⟩
  refine ⟨f, below, hframes, hoffered.frame, script, prompt, options,
    Frame.standing?_eq hgroup hnode, fun item hitem => ?_⟩
  rcases mem_onceItems.1 hitem with ⟨hnodup, hmem, option, hoption, hid, honce⟩
  -- Among options with different names the item stands for the one that was found to be available.
  rcases hboundary.items with ⟨hids, hsub⟩
  have hshown : item.id ∈ shown.map ChoiceOption.id := hids ▸ List.mem_map_of_mem hmem
  rcases List.mem_map.1 hshown with ⟨available, havailable, hsame⟩
  obtain rfl : available = option :=
    List.inj_on_of_nodup_map hnodup (hsub havailable) hoption (hsame.trans hid.symm)
  rw [← hid]
  cases hboundary with
  | mk _ _ _ hoffered hitems hprompt hq _ =>
      have hsame : q.once = p.once := by
        rw [hq]
        exact (evaluated_of_choice hoffered hitems hprompt).once
      rw [hsame]
      exact unfired_of_offered hoffered havailable honce

/-- The option that an item stands for is recorded if it is to be chosen at most once. -/
theorem logs_chosen {once : Once} {options : List ChoiceOption}
    {items : List ChoiceItem} {item : ChoiceItem} {option : ChoiceOption}
    (hgrows : once.Grows
      (if option.once then once.mark script (Once.optionKey option.id) else once))
    (hitem : item ∈ items)
    (hunused : ∀ item ∈ onceItems options items,
      once.fired script (Once.optionKey item.id) = false)
    (hfind : options.find? (fun option => option.id == item.id) = some option) :
    Once.Logs once ((onceItems options [item]).map fun item => .chosen script item.id)
      (if option.once then once.mark script (Once.optionKey option.id) else once) := by
  by_cases hmem : item ∈ onceItems options [item]
  · rcases mem_onceItems.1 hmem with ⟨hnodup, -, meant, hmeant, hid, honce⟩
    have hany : (options.any fun option => option.id == item.id && option.once) = true :=
      List.any_eq_true.2 ⟨meant, hmeant, by simp [hid, honce]⟩
    have hsingle : onceItems options [item] = [item] := by
      rw [onceItems, if_pos hnodup]
      refine List.filter_eq_self.2 fun other hother => ?_
      rw [List.mem_singleton.1 hother]
      exact hany
    -- Among options with different names the one that is found is the one that was meant.
    have hsame := find?_id_of_nodup hnodup hmeant
    rw [hid, hfind] at hsame
    obtain rfl := Option.some.inj hsame
    rw [hsingle]
    apply Once.Logs.single hgrows
    · apply Bool.eq_false_iff.1
      exact hunused item (mem_onceItems.2 ⟨hnodup, hitem, option, hmeant, hid, honce⟩)
    · rw [if_pos honce, hid]
      exact Once.fired_mark.2 (Or.inl ⟨rfl, rfl⟩)
  · have hnone : onceItems options [item] = [] := by
      refine List.eq_nil_iff_forall_not_mem.2 fun other hother => hmem ?_
      rcases List.mem_singleton.1 (mem_onceItems.1 hother).2.1 with rfl
      exact hother
    rw [hnone]
    exact Once.Logs.nil hgrows

end StoryPlayer
