import StoryPlayer.Proofs.Reading

/-!
# The check of single members

Before a save is read as a whole, some of its members are checked one by one.

- `Json.Resolved` says that no object names a member twice, as it is after repeated names have been
  resolved,
- `Snapshot.ReadFrom` says what every part of a save is read from, `Snapshot.CheckedRead` is about
  the members that are checked and `Snapshot.OthersRead` about the other ones,
- `Snapshot.checkShape_iff` shows that the check of a member accepts exactly what can be read from
  it,
- `Snapshot.checkShape_agrees` concludes that the check refuses no save that could be read.
-/

namespace StoryPlayer

/-! ## Documents without repeated names -/

namespace Json

/-- No object in the document names a member twice. -/
inductive Resolved : Json → Prop
  | null : Resolved .null
  | bool (b : Bool) : Resolved (.bool b)
  | number (n : Number) : Resolved (.number n)
  | text (s : String) : Resolved (.text s)
  | list {items : List Json} : (∀ item ∈ items, Resolved item) → Resolved (.list items)
  | object {members : List (String × Json)} : (Dict.keys members).Nodup →
      (∀ member ∈ members, Resolved member.2) → Resolved (.object members)
  | unreadable : Resolved .unreadable

mutual

/-- The canonical form of a document names no member twice. -/
theorem resolved_canonical (j : Json) : (canonical j).Resolved := by
  cases j with
  | null => exact .null
  | bool b => exact .bool b
  | number n => exact .number n
  | text s => exact .text s
  | unreadable => exact .unreadable
  | list items =>
      rw [canonical]
      exact .list (resolved_canonicalItems items)
  | object members =>
      rw [canonical]
      refine .object (Dict.nodup_keys (Dict.sorted_ofList _)) fun member hmember => ?_
      exact resolved_canonicalMembers members member (Dict.mem_of_mem_ofList hmember)

theorem resolved_canonicalItems (items : List Json) :
    ∀ item ∈ canonicalItems items, item.Resolved := by
  cases items with
  | nil => simp [canonicalItems]
  | cons first rest =>
      rw [canonicalItems]
      exact List.forall_mem_cons.2 ⟨resolved_canonical first, resolved_canonicalItems rest⟩

theorem resolved_canonicalMembers (members : List (String × Json)) :
    ∀ member ∈ canonicalMembers members, member.2.Resolved := by
  cases members with
  | nil => simp [canonicalMembers]
  | cons first rest =>
      rcases first with ⟨name, value⟩
      rw [canonicalMembers]
      exact List.forall_mem_cons.2 ⟨resolved_canonical value, resolved_canonicalMembers rest⟩

end

/-! ## Members of different names -/

section Members

variable {α : Type} {members : List (String × Json)} {read : Json → Option α}

/-- If no member is named twice, a member that must be there is the one found under its name. -/
theorem required_eq (h : (Dict.keys members).Nodup) (name : String) (read : Json → Option α) :
    required members name read = (Dict.get? members name).bind read := by
  unfold required
  rw [member?_eq h]
  cases Dict.get? members name <;> rfl

/-- A list is read exactly if every item is. -/
theorem isSome_mapM {items : List Json} :
    (items.mapM read).isSome = true ↔ ∀ item ∈ items, (read item).isSome = true := by
  induction items with
  | nil => simp
  | cons first rest ih =>
      rw [List.forall_mem_cons, ← ih, List.mapM_cons]
      cases read first with
      | none => simp
      | some x => cases rest.mapM read <;> simp

end Members

/-! ## Records that are written as objects -/

def isList : Json → Bool
  | .list _ => true
  | _ => false

/-- A record that is not a list is an object. -/
theorem eq_object_of_asRecord {layout : Layout} {j : Json} {members : List (String × Json)}
    (h : j.asRecord layout = some members) (hlist : j.isList = false) : j = .object members := by
  cases j with
  | object found =>
      cases h
      rfl
  | list items => cases hlist
  | _ => cases h

end Json

/-! ## Reading a save -/

namespace Snapshot

/-- None of the options on offer is written as a list. -/
def ItemsNamed (members : List (String × Json)) : Prop :=
  ∀ items, Dict.get? members "pendingChoiceItems" = some (.list items) →
    ∀ item ∈ items, item.isList = false

/-- The save, and the options that it offers, are not written as lists. -/
def Named (j : Json) : Prop :=
  j.isList = false ∧ ∀ members, j = .object members → ItemsNamed members

/-- The parts of the save are read from the members of an object. -/
structure ReadFrom (members : List (String × Json)) (s : Snapshot) : Prop where
  schema : Json.required members "schemaVersion" Json.asText = some s.schema
  version : Json.required members "compilerVersion" Json.asText = some s.version
  cursor : Json.required members "cursor" Cursor.ofJson = some s.cursor
  frames : Json.required members "runtimeFrames" (Json.asList Frame.ofJson) = some s.frames
  scopes : Json.defaulted members "scopeChain" [] (Json.asList ScopeEntry.ofJson) = some s.scopes
  continuations : Json.defaulted members "continuations" [] (Json.asList Continuation.ofJson) =
    some s.continuations
  rng : Json.required members "rngState" Json.asUInt32 = some s.rng
  waiting : Json.required members "waitingChoice" Json.asBool = some s.waiting
  choice : Json.required members "pendingChoiceNodeId" Json.asText = some s.choice
  items : Json.required members "pendingChoiceItems" (Json.asList ChoiceItem.ofJson) =
    some s.items
  prompt : Json.optional members "pendingChoicePromptText" Json.asText = some s.prompt
  once : Json.defaulted members "onceStateByScript" [] (Json.asDict (Json.asList Json.asText)) =
    some s.once

/-- Each of the members that are checked can be read for itself, and two of them have the value that
they must have. -/
structure CheckedRead (members : List (String × Json)) : Prop where
  schema : Json.required members "schemaVersion" Json.asText = some currentSchema
  rng : (Json.required members "rngState" Json.asUInt32).isSome
  waiting : Json.required members "waitingChoice" Json.asBool = some true
  items : (Json.required members "pendingChoiceItems" (Json.asList ChoiceItem.ofJson)).isSome
  prompt : (Json.optional members "pendingChoicePromptText" Json.asText).isSome

/-- Each of the members that are not checked can be read for itself. -/
structure OthersRead (members : List (String × Json)) : Prop where
  version : (Json.required members "compilerVersion" Json.asText).isSome
  cursor : (Json.required members "cursor" Cursor.ofJson).isSome
  frames : (Json.required members "runtimeFrames" (Json.asList Frame.ofJson)).isSome
  scopes : (Json.defaulted members "scopeChain" [] (Json.asList ScopeEntry.ofJson)).isSome
  continuations :
    (Json.defaulted members "continuations" [] (Json.asList Continuation.ofJson)).isSome
  choice : (Json.required members "pendingChoiceNodeId" Json.asText).isSome
  once :
    (Json.defaulted members "onceStateByScript" [] (Json.asDict (Json.asList Json.asText))).isSome

variable {members : List (String × Json)} {j : Json} {s : Snapshot}

/-- A save is read exactly if each of its parts is read from a member. -/
theorem ofJson_eq_some :
    ofJson j = some s ↔ ∃ members, j.asRecord layout = some members ∧ s.ReadFrom members := by
  constructor
  · intro h
    rcases Option.bind_eq_some_iff.1 h with ⟨members, hmembers, h⟩
    rcases Option.bind_eq_some_iff.1 h with ⟨schema, hschema, h⟩
    rcases Option.bind_eq_some_iff.1 h with ⟨version, hversion, h⟩
    rcases Option.bind_eq_some_iff.1 h with ⟨cursor, hcursor, h⟩
    rcases Option.bind_eq_some_iff.1 h with ⟨frames, hframes, h⟩
    rcases Option.bind_eq_some_iff.1 h with ⟨scopes, hscopes, h⟩
    rcases Option.bind_eq_some_iff.1 h with ⟨continuations, hcontinuations, h⟩
    rcases Option.bind_eq_some_iff.1 h with ⟨rng, hrng, h⟩
    rcases Option.bind_eq_some_iff.1 h with ⟨waiting, hwaiting, h⟩
    rcases Option.bind_eq_some_iff.1 h with ⟨choice, hchoice, h⟩
    rcases Option.bind_eq_some_iff.1 h with ⟨items, hitems, h⟩
    rcases Option.bind_eq_some_iff.1 h with ⟨prompt, hprompt, h⟩
    rcases Option.bind_eq_some_iff.1 h with ⟨once, honce, h⟩
    cases h
    exact ⟨members, hmembers, hschema, hversion, hcursor, hframes, hscopes,
      hcontinuations, hrng, hwaiting, hchoice, hitems, hprompt, honce⟩
  · rintro ⟨members, hmembers, h⟩
    simp [ofJson, hmembers, h.schema, h.version, h.cursor, h.frames, h.scopes,
      h.continuations, h.rng, h.waiting, h.choice, h.items, h.prompt, h.once]

/-- A save can be read if all of its members can. -/
theorem exists_readFrom (hchecked : CheckedRead members) (hothers : OthersRead members) :
    ∃ s : Snapshot, s.ReadFrom members := by
  rcases Option.isSome_iff_exists.1 hchecked.rng with ⟨rng, hrng⟩
  rcases Option.isSome_iff_exists.1 hchecked.items with ⟨items, hitems⟩
  rcases Option.isSome_iff_exists.1 hchecked.prompt with ⟨prompt, hprompt⟩
  rcases Option.isSome_iff_exists.1 hothers.version with ⟨version, hversion⟩
  rcases Option.isSome_iff_exists.1 hothers.cursor with ⟨cursor, hcursor⟩
  rcases Option.isSome_iff_exists.1 hothers.frames with ⟨frames, hframes⟩
  rcases Option.isSome_iff_exists.1 hothers.scopes with ⟨scopes, hscopes⟩
  rcases Option.isSome_iff_exists.1 hothers.continuations with ⟨continuations, hcontinuations⟩
  rcases Option.isSome_iff_exists.1 hothers.choice with ⟨choice, hchoice⟩
  rcases Option.isSome_iff_exists.1 hothers.once with ⟨once, honce⟩
  exact ⟨⟨currentSchema, version, cursor, frames, scopes, continuations, rng, true, choice, items,
    prompt, once⟩, hchecked.schema, hversion, hcursor, hframes, hscopes, hcontinuations, hrng,
    hchecked.waiting, hchoice, hitems, hprompt, honce⟩

/-- What the save is read from can be read member by member. -/
theorem ReadFrom.othersRead (h : s.ReadFrom members) : OthersRead members where
  version := by simp [h.version]
  cursor := by simp [h.cursor]
  frames := by simp [h.frames]
  scopes := by simp [h.scopes]
  continuations := by simp [h.continuations]
  choice := by simp [h.choice]
  once := by simp [h.once]

/-- The same of the members that are checked, with the values that they must have. -/
theorem ReadFrom.checkedRead (h : s.ReadFrom members) (hschema : s.schema = currentSchema)
    (hwaiting : s.waiting = true) : CheckedRead members where
  schema := by rw [h.schema, hschema]
  rng := by simp [h.rng]
  waiting := by rw [h.waiting, hwaiting]
  items := by simp [h.items]
  prompt := by simp [h.prompt]

/-! ## Single members -/

/-- The check of the schema accepts what its reader reads as the current one. -/
theorem schemaFits_iff (h : (Dict.keys members).Nodup) :
    schemaFits members = true ↔
      Json.required members "schemaVersion" Json.asText = some currentSchema := by
  rw [Json.required_eq h, schemaFits, beq_iff_eq]

theorem rngFits_iff (h : (Dict.keys members).Nodup) :
    rngFits members = true ↔ (Json.required members "rngState" Json.asUInt32).isSome := by
  rw [Json.required_eq h, rngFits]

theorem waitingFits_iff (h : (Dict.keys members).Nodup) :
    waitingFits members = true ↔
      Json.required members "waitingChoice" Json.asBool = some true := by
  rw [Json.required_eq h, waitingFits, beq_iff_eq]

/-- The check of an option accepts what can be read, but no list. -/
theorem itemFits_iff {item : Json} (h : item.Resolved) :
    itemFits item = true ↔ item.isList = false ∧ (ChoiceItem.ofJson item).isSome := by
  cases h with
  | @object members hnames _ =>
      simp only [itemFits, ChoiceItem.ofJson, Json.asRecord_object, Json.isList,
        Option.bind_eq_bind, Option.bind_some, Json.required_eq hnames, true_and]
      cases (Dict.get? members "index").bind Json.asNat64 <;>
        cases (Dict.get? members "id").bind Json.asText <;>
          cases (Dict.get? members "text").bind Json.asText <;> simp
  | _ => simp [itemFits, ChoiceItem.ofJson, Json.asRecord, Json.isList]

/-- The check of the items accepts what their reader reads, except for items written as lists. -/
theorem itemsFit_iff (h : (Json.object members).Resolved) :
    itemsFit members = true ↔ ItemsNamed members ∧
      (Json.required members "pendingChoiceItems" (Json.asList ChoiceItem.ofJson)).isSome := by
  cases h with
  | object hnames hmembers =>
      rw [Json.required_eq hnames, itemsFit, ItemsNamed]
      cases hget : Dict.get? members "pendingChoiceItems" with
      | none => simp
      | some j =>
          cases hmembers _ (Dict.mem_of_get? hget) with
          | @list items hitems =>
              have hall : items.all itemFits = true ↔ (∀ item ∈ items, item.isList = false) ∧
                  ∀ item ∈ items, (ChoiceItem.ofJson item).isSome := by
                rw [List.all_eq_true, ← forall₂_and]
                exact forall₂_congr fun item hitem => itemFits_iff (hitems item hitem)
              simpa [Json.asList, Json.isSome_mapM] using hall
          | _ => simp [Json.asList]

/-- The check of the prompt accepts what its reader reads. -/
theorem promptFits_iff (h : (Dict.keys members).Nodup) :
    promptFits members = true ↔
      (Json.optional members "pendingChoicePromptText" Json.asText).isSome := by
  unfold promptFits Json.optional
  rw [Json.member?_eq h]
  cases Dict.get? members "pendingChoicePromptText" with
  | none => simp
  | some j => cases j <;> simp [Json.asText]

/-- The check accepts exactly those members that can be read, and whose options are no lists. -/
theorem checkShape_iff (h : (Json.object members).Resolved) :
    checkShape (.object members) = .ok () ↔ ItemsNamed members ∧ CheckedRead members := by
  have hnames : (Dict.keys members).Nodup := by
    cases h with
    | object hnames _ => exact hnames
  have hfits : checkShape (.object members) = .ok () ↔ schemaFits members = true ∧
      rngFits members = true ∧ waitingFits members = true ∧ itemsFit members = true ∧
        promptFits members = true := by
    simp only [checkShape]
    split_ifs <;> simp_all
  rw [hfits, schemaFits_iff hnames, rngFits_iff hnames, waitingFits_iff hnames, itemsFit_iff h,
    promptFits_iff hnames]
  exact ⟨fun ⟨hschema, hrng, hwaiting, ⟨hnamed, hitems⟩, hprompt⟩ =>
    ⟨hnamed, hschema, hrng, hwaiting, hitems, hprompt⟩, fun ⟨hnamed, hchecked⟩ =>
    ⟨hchecked.schema, hchecked.rng, hchecked.waiting, ⟨hnamed, hchecked.items⟩, hchecked.prompt⟩⟩

/-! ## The check and the reader -/

/-- Only objects pass. -/
theorem exists_of_checkShape (h : checkShape j = .ok ()) : ∃ members, j = .object members := by
  cases j with
  | object members => exact ⟨members, rfl⟩
  | _ => cases h

/-- A save passes the check and is read if it is read and has the right schema and was made while
waiting for a choice. -/
theorem checked_iff (h : j.Resolved) (hnamed : Named j) :
    checkShape j = .ok () ∧ ofJson j = some s ↔
      ofJson j = some s ∧ s.schema = currentSchema ∧ s.waiting = true := by
  constructor
  · rintro ⟨hcheck, hread⟩
    rcases ofJson_eq_some.1 hread with ⟨members, hmembers, hfrom⟩
    obtain rfl := Json.eq_object_of_asRecord hmembers hnamed.1
    have hchecked := ((checkShape_iff h).1 hcheck).2
    have hschema := hfrom.schema.symm.trans hchecked.schema
    have hwaiting := hfrom.waiting.symm.trans hchecked.waiting
    exact ⟨hread, Option.some.inj hschema, Option.some.inj hwaiting⟩
  · rintro ⟨hread, hschema, hwaiting⟩
    rcases ofJson_eq_some.1 hread with ⟨members, hmembers, hfrom⟩
    obtain rfl := Json.eq_object_of_asRecord hmembers hnamed.1
    exact ⟨(checkShape_iff h).2 ⟨hnamed.2 members rfl, hfrom.checkedRead hschema hwaiting⟩, hread⟩

/-- A save is read after the check exactly if it passes the check and can be read. -/
theorem ofJsonChecked_eq_ok {words : Json.Words} :
    ofJsonChecked words j = .ok s ↔ checkShape j = .ok () ∧ ofJson j = some s := by
  unfold ofJsonChecked
  cases checkShape j with
  | error fault => simp
  | ok _ => cases ofJson j <;> simp

/-- The check of single members and the reader of saves agree on documents in which the save and the
options that it offers are written as objects.

The check refuses no save that could be read and has the schema of saves and waits for a choice.
What passes the check can be read member by member, so that only another member can be at fault
when the save as a whole cannot be read. -/
theorem checkShape_agrees :
    (∀ (j : Json) (s : Snapshot), j.Resolved → Named j →
      (checkShape j = .ok () ∧ ofJson j = some s ↔
        ofJson j = some s ∧ s.schema = currentSchema ∧ s.waiting = true)) ∧
    (∀ (words : Json.Words) (j : Json), j.Resolved → checkShape j = .ok () →
      ∃ members, j = .object members ∧ CheckedRead members ∧
        (ofJsonChecked words j = .error (.snapshotShape (words.ofDocument j)) ↔
          ¬ OthersRead members)) ∧
    ∀ (words : Json.Words) (text : String) (s : Snapshot),
      (∀ j, Json.parse text = some j → Named j.canonical) →
        (decode text words = .ok s ↔ ∃ j, Json.parse text = some j ∧
          ofJson j.canonical = some s ∧ s.schema = currentSchema ∧ s.waiting = true) := by
  refine ⟨fun j s hj hnamed => checked_iff hj hnamed, ?_, ?_⟩
  · intro words j hj hcheck
    rcases exists_of_checkShape hcheck with ⟨members, rfl⟩
    have hchecked := ((checkShape_iff hj).1 hcheck).2
    refine ⟨members, rfl, hchecked, ?_⟩
    constructor
    · -- With the other fields read there would be no fault.
      intro hshape hothers
      rcases exists_readFrom hchecked hothers with ⟨s, hfrom⟩
      have hread := ofJson_eq_some.2 ⟨members, Json.asRecord_object _ members, hfrom⟩
      rw [ofJsonChecked_eq_ok.2 ⟨hcheck, hread⟩] at hshape
      cases hshape
    · intro hothers
      have hnone : ofJson (.object members) = none := by
        refine Option.eq_none_iff_forall_not_mem.2 fun s hread => ?_
        rcases ofJson_eq_some.1 hread with ⟨_, heq, hfrom⟩
        cases heq
        exact hothers hfrom.othersRead
      simp only [ofJsonChecked, hcheck, hnone]
  · -- A text is read by way of its canonical document.
    intro words text s hnamed
    unfold decode Json.parseCanonical
    cases hparse : Json.parse text with
    | none => simp
    | some j =>
        simp only [Option.map_some, Option.some.injEq, exists_eq_left']
        rw [ofJsonChecked_eq_ok, checked_iff (Json.resolved_canonical j) (hnamed j hparse)]

/-! ## An example -/

/-- The document of a save as nobody writes it: members that may be absent are, some members mean
nothing, and they stand in no order. -/
def looseDocument (cursor : Json) : Json :=
  .object [("waitingChoice", .bool true), ("comment", .null), ("rngState", .nat 4294967295),
    ("pendingChoiceItems", .list [.object [("text", .text "go on"), ("hint", .null),
      ("index", .nat 0), ("id", .text "o")]]),
    ("schemaVersion", .text "snapshot.v1"), ("pendingChoiceNodeId", .text "c"),
    ("compilerVersion", .text "player.v1"), ("runtimeFrames", .list []), ("cursor", cursor)]

def looseSave : Snapshot where
  schema := currentSchema
  version := "player.v1"
  cursor := ⟨[], 3⟩
  frames := []
  scopes := []
  continuations := []
  rng := 4294967295
  waiting := true
  choice := "c"
  items := [⟨0, "o", "go on"⟩]
  prompt := none
  once := []

theorem resolved_looseDocument {cursor : Json} (h : cursor.Resolved) :
    (looseDocument cursor).Resolved := by
  have hnames : (["waitingChoice", "comment", "rngState", "pendingChoiceItems", "schemaVersion",
    "pendingChoiceNodeId", "compilerVersion", "runtimeFrames", "cursor"] : List String).Nodup := by
    decide
  refine .object hnames ?_
  simp only [List.forall_mem_cons]
  refine ⟨.bool _, .null, .number _, .list ?_, .text _, .text _, .text _, .list (by simp), h,
    by simp⟩
  refine List.forall_mem_singleton.2 (.object (by decide) ?_)
  simp only [List.forall_mem_cons]
  exact ⟨.text _, .null, .number _, .text _, by simp⟩

theorem named_looseDocument (cursor : Json) : Named (looseDocument cursor) := by
  refine ⟨rfl, ?_⟩
  rintro members hmembers items hitems item hitem
  cases hmembers
  cases hitems
  rcases List.mem_singleton.1 hitem with rfl
  rfl

/-- With a cursor the document is that of a save, and its text is read; without one it passes the check
all the same, and the fault is that of the document as a whole. -/
theorem checkShape_agrees_looseDocument :
    (checkShape (looseDocument (Cursor.toJson ⟨[], 3⟩)) = .ok () ∧
      ofJson (looseDocument (Cursor.toJson ⟨[], 3⟩)) = some looseSave) ∧
    (checkShape (looseDocument .null) = .ok () ∧
      ∃ members, looseDocument .null = .object members ∧ CheckedRead members ∧
        (ofJsonChecked .silent (looseDocument .null) = .error (.snapshotShape none) ↔
          ¬ OthersRead members)) ∧
    decode (looseDocument (Cursor.toJson ⟨[], 3⟩)).print = .ok looseSave := by
  have hcursor : (Cursor.toJson ⟨[], 3⟩).Resolved := by
    refine .object (by decide) ?_
    simp only [List.forall_mem_cons]
    exact ⟨.list (by simp), .number _, by simp⟩
  have hread : ofJson (looseDocument (Cursor.toJson ⟨[], 3⟩)) = some looseSave := rfl
  have hcheck : checkShape (looseDocument .null) = .ok () := rfl
  have hparse : Json.parse (looseDocument (Cursor.toJson ⟨[], 3⟩)).print =
      some (looseDocument (Cursor.toJson ⟨[], 3⟩)) := by
    have hitem : Json.Faithful (.object [("text", .text "go on"), ("hint", .null),
        ("index", .nat 0), ("id", .text "o")]) := by
      refine .object ?_
      simp only [List.forall_mem_cons]
      exact ⟨.text _, .null, .natural (Nat.zero_le _), .text _, by simp⟩
    have hplace : Json.Faithful (Cursor.toJson ⟨[], 3⟩) := by
      refine .object ?_
      simp only [List.forall_mem_cons]
      exact ⟨.list (by simp), .natural (by decide), by simp⟩
    refine Json.parse_print (.object ?_) (by decide)
    simp only [List.forall_mem_cons]
    exact ⟨.bool _, .null, .natural (by decide), .list (List.forall_mem_singleton.2 hitem),
      .text _, .text _, .text _, .list (by simp), hplace, by simp⟩
  have hcanonical : ofJson (looseDocument (Cursor.toJson ⟨[], 3⟩)).canonical = some looseSave := rfl
  refine ⟨?_, ⟨hcheck, checkShape_agrees.2.1 .silent _ (resolved_looseDocument .null) hcheck⟩, ?_⟩
  · exact (checkShape_agrees.1 _ looseSave (resolved_looseDocument hcursor)
      (named_looseDocument _)).2 ⟨hread, rfl, rfl⟩
  · refine (checkShape_agrees.2.2 .silent _ looseSave ?_).2 ⟨_, hparse, hcanonical, rfl, rfl⟩
    intro j hj
    obtain rfl := Option.some.inj (hparse.symm.trans hj)
    refine ⟨rfl, ?_⟩
    rintro members hmembers items hitems item hitem
    cases hmembers
    cases hitems
    rcases List.mem_singleton.1 hitem with rfl
    rfl

end Snapshot
end StoryPlayer
