import StoryPlayer.Proofs.Loading
import StoryPlayer.Proofs.Resume
import StoryPlayer.Proofs.Storing

/-!
# Texts of saves

Whatever is saved of a story that was read from a text is read back from the text of the save.

- `Snapshot.Holds` are the numbers that occur in a save,
- `storable_saveOf` and `depth_saveOf` show that a save of a tidy state can be stored and is not
  nested too deep,
- `decode_play` concludes for whole runs that the text of a save stands for this save.
-/

namespace StoryPlayer

variable {story : Story} {script : String} {p q : Player} {P Q : Float → Prop}

/-! ## Numbers in saves -/

def Snapshot.Holds (x : Float) (s : Snapshot) : Prop :=
  (∃ f ∈ s.frames, ∃ entry ∈ f.scope, entry.2.Holds x) ∨
    ∃ e ∈ s.scopes, ∃ entry ∈ e.scope, entry.2.Holds x

/-- Only the numbers that occur matter for what can be stored. -/
theorem Dict.Storable.mono {scope : Dict Value} (h : Dict.Storable P scope)
    (hQ : ∀ entry ∈ scope, ∀ x, P x → entry.2.Holds x → Q x) : Dict.Storable Q scope :=
  ⟨h.sorted, fun entry hentry => (h.values entry hentry).mono (hQ entry hentry)⟩

/-- The same of a whole save. -/
theorem Snapshot.Storable.mono {s : Snapshot} (h : s.Storable P)
    (hQ : ∀ x, P x → s.Holds x → Q x) : s.Storable Q := by
  refine ⟨h.schema, h.waiting, h.cursor, fun f hf => ?_, fun e he => ?_, h.continuations, h.items,
    h.once⟩
  · have hframe := h.frames f hf
    have hscope : Dict.Storable Q f.scope := hframe.scope.mono fun entry hentry x hx hholds =>
      hQ x hx (Or.inl ⟨f, hf, entry, hentry, hholds⟩)
    exact ⟨hframe.node, hscope, hframe.sorted, hframe.types, hframe.continuation⟩
  · exact (h.scopes e he).mono fun entry hentry x hx hholds =>
      hQ x hx (Or.inr ⟨e, he, entry, hentry, hholds⟩)

/-! ## Saves of tidy states -/

/-- In a tidy state everything can be stored, and all numbers are finite. -/
theorem storable_saveOf {c : Pending} (hp : p.Tidy) (hc : p.pending = some c) :
    (p.saveOf story c).Storable fun x => x.isFinite = true := by
  have hframes : ∀ f ∈ p.frames.reverse, f.Tidy := fun f hf => hp.frames f (List.mem_reverse.1 hf)
  refine ⟨rfl, rfl, ?_, fun f hf => (hframes f hf).storable, fun e he => ?_, fun d hd => ?_,
    hp.items c hc, hp.once.filter _⟩
  · -- The cursor stands where the innermost frame does.
    change (p.frames.reverse.getLast?.map Frame.node).getD 0 ≤ Json.maxSignificand
    cases hlast : p.frames.reverse.getLast? with
    | none => exact Nat.zero_le _
    | some f => exact (hframes f (List.mem_of_getLast? hlast)).storable.node
  · rcases List.mem_map.1 he with ⟨f, hf, rfl⟩
    exact (hframes f hf).storable.scope
  · rcases List.mem_filterMap.1 hd with ⟨f, hf, hd⟩
    exact (hframes f hf).storable.continuation d hd

/-- Values are nested less deep than their types. -/
theorem depth_value_lt {f : Frame} (hf : f.Tidy) (htyped : f.Typed) {entry : String × Value}
    (hentry : entry ∈ f.scope) : entry.2.toJson.depth < ScriptType.maxDepth := by
  rcases htyped entry hentry with ⟨type, hget, hfits⟩
  have hmem := Dict.mem_of_get? hget
  calc entry.2.toJson.depth
      < type.toJson.depth :=
        Value.depth_of_fits (hf.storable.types _ hmem) (hf.storable.scope.values _ hentry) hfits
    _ ≤ ScriptType.maxDepth := hf.shallow _ hmem

/-- Values are nested no deeper than their types, so a save stays within the limit. -/
theorem depth_saveOf {c : Pending} (hp : p.Tidy) (htyped : p.Typed) :
    (p.saveOf story c).toJson.depth ≤ Json.maxDepth := by
  have hvalues : ∀ f ∈ p.frames.reverse, ∀ entry ∈ f.scope, entry.2.toJson.depth ≤ 121 + 1 := by
    intro f hf entry hentry
    have hmem := List.mem_reverse.1 hf
    exact Nat.le_of_lt (depth_value_lt (hp.frames f hmem) (htyped f hmem) hentry)
  have hdepth : (p.saveOf story c).toJson.depth ≤ 121 + 5 := by
    refine Snapshot.depth_toJson_le (fun f hf => ⟨hvalues f hf, ?_⟩) fun e he => ?_
    · exact (hp.frames f (List.mem_reverse.1 hf)).shallow
    · rcases List.mem_map.1 he with ⟨f, hf, rfl⟩
      exact hvalues f hf
  exact Nat.le_trans hdepth (by decide)

/-! ## Whole runs -/

/-- A story is read from a text, and played from the start of a script with finite arguments.  Then
whatever is asked of it, no variable holds a number that is not finite.  While a choice waits for an
answer, its save is nested no deeper than a reader allows; and if the finite numbers that occur in
it are read back as they are printed, the text of the save is read back as this save.

No text is longer than a number of 64 bits can say; places in its lists are such numbers. -/
theorem decode_play {text : String} {words : Json.Words} {bundle : Bundle} {seed : Option UInt32}
    {host : HostFunctions} {evaluator : Formula.Evaluator} {arguments : Dict Value}
    (hlength : text.length < 2 ^ 64) (hload : Bundle.load text words = .ok bundle)
    (hmake : Story.make bundle seed host evaluator = .ok story)
    (harguments : ∀ entry ∈ arguments, entry.2.Finite)
    (hbegin : Player.begin story script arguments = .ok p) (requests : List Request) :
    (∀ f ∈ (p.play story requests).frames, ∀ entry ∈ f.scope, ∀ x, entry.2.Holds x →
      x.isFinite = true) ∧
    ∀ c, (p.play story requests).pending = some c →
      ∃ save, (p.play story requests).snapshot story = .ok save ∧
        save.toJson.depth ≤ Json.maxDepth ∧
        ((∀ x, x.isFinite = true → save.Holds x → Json.ReadsBack x) →
          Snapshot.decode save.encode words = .ok save) := by
  -- Tidy frames can be stored; types bound the nesting of values, so both invariants are needed.
  have hproper := load_proper hload hmake
  have htidy := play_tidy (load_tidy hlength hload hmake) harguments hbegin requests
  have htyped : (p.play story requests).Typed :=
    play_keeps requests (begin_typed hproper hbegin)
      (fun _ _ _ hp _ hstep => hstep.typed hproper hp) fun _ _ _ hp hanswer => hanswer.typed hp
  generalize p.play story requests = reached at htidy htyped ⊢
  refine ⟨fun f hf entry hentry x hx => ?_, fun c hc => ?_⟩
  · exact ((htidy.frames f hf).storable.scope.values entry hentry).of_holds hx
  · have hdepth := @depth_saveOf story reached c htidy htyped
    refine ⟨reached.saveOf story c, snapshot_pending hc, hdepth, fun hnumbers => ?_⟩
    exact ((storable_saveOf htidy hc).mono hnumbers).decode_encode hdepth words

/-- A script with a parameter, as it is written. -/
def purseTale.text : String :=
  "\x7b\"scripts\":\x7b\"main\":\x7b\"scriptName\":\"main\",\"params\":[\x7b\"name\":\"gold\"," ++
  "\"type\":\x7b\"kind\":\"primitive\",\"name\":\"number\"\x7d\x7d],\"rootGroupId\":\"main\"," ++
  "\"groups\":\x7b\"main\":\x7b\"groupId\":\"main\",\"nodes\":[\x7b\"kind\":\"choice\"," ++
  "\"id\":\"c\",\"options\":[\x7b\"id\":\"o\",\"text\":\"pay\",\"groupId\":\"main\"\x7d]" ++
  "\x7d]\x7d\x7d\x7d\x7d\x7d"

def purseTale.document : Json :=
  .object [("scripts", .object [("main", .object [("scriptName", .text "main"),
    ("params", .list [.object [("name", .text "gold"),
      ("type", .object [("kind", .text "primitive"), ("name", .text "number")])]]),
    ("rootGroupId", .text "main"),
    ("groups", .object [("main", .object [("groupId", .text "main"),
      ("nodes", .list [.object [("kind", .text "choice"), ("id", .text "c"),
        ("options", .list [.object [("id", .text "o"), ("text", .text "pay"),
          ("groupId", .text "main")]])]])])])])])]

def purseTale : Story :=
  .ofScripts [
    ("main", .ofGroups "main" [⟨"gold", .primitive .number, false⟩] [
      ("main", [.choice "c" none [⟨"o", "pay", none, false, false, "main"⟩]])])]

def purseTale.begun : Player :=
  (Player.fresh purseTale.seed).push
    (Player.rootFrame "main" ⟨[("gold", .number 10)], [("gold", .primitive .number)]⟩ none)

def purseTale.save : Snapshot where
  schema := Snapshot.currentSchema
  version := purseTale.version
  cursor := ⟨["main"], 0⟩
  frames := purseTale.begun.frames
  scopes := [⟨1, "main", [("gold", .number 10)]⟩]
  continuations := []
  rng := purseTale.seed
  waiting := true
  choice := "c"
  items := [⟨0, "o", "pay"⟩]
  prompt := none
  once := []

/-- The characters of a text that is put together from two. -/
theorem append_eq_ofList {a b : String} {as bs : List Char} (ha : a = .ofList as)
    (hb : b = .ofList bs) : a ++ b = .ofList (as ++ bs) := by
  rw [ha, hb, String.ofList_append]

set_option maxRecDepth 4000 in
/-- The text is short enough, and it is the text of the document. -/
theorem purseTale.parse_text : purseTale.text.length < 2 ^ 64 ∧
    Json.parseForm purseTale.text = some purseTale.document := by
  -- The characters get a name, so that they are not computed from the text again.
  obtain ⟨cs, hcs, hlength, hparse⟩ : ∃ cs, purseTale.text = .ofList cs ∧ cs.length < 2 ^ 64 ∧
      Json.parseChars cs = some purseTale.document := by
    have htext : purseTale.text = .ofList _ :=
      append_eq_ofList (append_eq_ofList (append_eq_ofList (append_eq_ofList rfl rfl) rfl) rfl) rfl
    exact ⟨_, htext, by decide +kernel, rfl⟩
  rw [← String.length_toList, Json.parseForm, hcs, String.toList_ofList]
  exact ⟨hlength, hparse⟩

/-- The text is accepted as the bundle of this script. -/
theorem purseTale.load_text :
    Bundle.load purseTale.text = .ok ⟨purseTale.scripts, none, [], none⟩ := by
  have hread : (Json.parseForm purseTale.text).bind Bundle.ofJson =
      some ⟨purseTale.scripts, none, [], none⟩ := by
    rw [purseTale.parse_text.2]
    rfl
  rw [Bundle.load, hread]

/-- There is one number in the save. -/
theorem purseTale.holds_save {x : Float} (h : purseTale.save.Holds x) : x = 10 := by
  have hnumber : ∀ entry ∈ [("gold", Value.number 10)], entry.2.Holds x → x = 10 := by
    intro entry hentry hx
    rcases List.mem_singleton.1 hentry with rfl
    cases hx
    rfl
  rcases h with ⟨f, hf, entry, hentry, hx⟩ | ⟨e, he, entry, hentry, hx⟩
  · rcases List.mem_singleton.1 hf with rfl
    exact hnumber entry hentry hx
  · rcases List.mem_singleton.1 he with rfl
    exact hnumber entry hentry hx

/-- The number ten is printed as `10.0` and read back from this text. -/
theorem readsBack_ten : Json.ReadsBack 10 := by
  unfold Json.ReadsBack
  rfl

/-- The save of a story that has shown something and offers a choice is read back. -/
theorem decode_play_purseTale :
    (purseTale.begun.play purseTale [.next]).snapshot purseTale = .ok purseTale.save ∧
      purseTale.save.toJson.depth ≤ Json.maxDepth ∧
      Snapshot.decode purseTale.save.encode = .ok purseTale.save := by
  have hmake : Story.make ⟨purseTale.scripts, none, [], none⟩ none .none Formula.interpreter =
      .ok purseTale := rfl
  have harguments : ∀ entry ∈ [("gold", Value.number 10)], entry.2.Finite := by
    intro entry hentry
    rcases List.mem_singleton.1 hentry with rfl
    exact .number rfl
  have hbegin : Player.begin purseTale "main" [("gold", .number 10)] = .ok purseTale.begun := rfl
  have hpending : (purseTale.begun.play purseTale [.next]).pending =
      some ⟨1, "c", [⟨0, "o", "pay"⟩], none⟩ := by decide +kernel
  have hsaved : (purseTale.begun.play purseTale [.next]).snapshot purseTale =
      .ok purseTale.save := rfl
  rcases (decode_play purseTale.parse_text.1 purseTale.load_text hmake harguments hbegin
    [.next]).2 _ hpending with ⟨save, hsave, hdepth, hdecode⟩
  obtain rfl : purseTale.save = save := by
    rw [hsaved] at hsave
    exact Except.ok.inj hsave
  refine ⟨hsaved, hdepth, hdecode fun x _ hx => ?_⟩
  rw [purseTale.holds_save hx]
  exact readsBack_ten

end StoryPlayer
