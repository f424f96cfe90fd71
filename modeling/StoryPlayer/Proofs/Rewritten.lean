import StoryPlayer.Proofs.Saving
import StoryPlayer.Proofs.Scaling

/-!
# Bundles that are written again

What is read from the text of a bundle is written as a text that stands for it.  The members of a
record are looked up in the order in which they are written, so nothing is sorted here.

- `Json.Lasts` says that a thing is read from a document that is printed without loss and not nested
  too deep; there is a lemma for lists, dictionaries and records,
- `ScriptType.lasts_of_ofJson`, `Value.Sound.lasts` and `Node.lasts` are about the parts of a bundle,
- `script_lasts` and its relatives go up from types and nodes to scripts,
- `load_encode` concludes for bundles.
-/

namespace StoryPlayer

/-! ## Documents -/

namespace Json

/-- The thing is read from the document; it can be printed without loss and is nested at most `n`
deep. -/
structure Lasts {α : Type} (read : Json → Option α) (n : Nat) (j : Json) (x : α) : Prop where
  reads : read j = some x
  faithful : Faithful j
  depth : j.depth ≤ n

@[simp] theorem depth_optionalText (s : Option String) : (optionalText s).depth = 0 := by
  cases s <;> rfl

theorem faithful_optionalText (s : Option String) : Faithful (optionalText s) := by
  cases s with
  | none => exact .null
  | some s => exact .text s

/-- A sorted dictionary is read entry by entry. -/
theorem asDict_eq {α : Type} {read : Json → Option α} {write : α → Json} {d : Dict α}
    (hsorted : Dict.Sorted d) (h : ∀ entry ∈ d, read (write entry.2) = some entry.2) :
    asDict read (Dict.toJson write d) = some d := by
  have hentries : (d.map fun entry => (entry.1, write entry.2)).mapM
      (fun member => (read member.2).map fun value => (member.1, value)) = some d := by
    refine mapM_eq_some fun entry hentry => ?_
    rw [h entry hentry]
    rfl
  simp [asDict, Dict.toJson, hentries, Dict.ofList_eq hsorted]

namespace Lasts

variable {α : Type} {read : Json → Option α} {write : α → Json} {n : Nat} {j : Json} {x : α}

theorem mono (h : Lasts read n j x) {m : Nat} (hle : n ≤ m) : Lasts read m j x :=
  ⟨h.reads, h.faithful, Nat.le_trans h.depth hle⟩

/-- What lasts and is not nested too deep is read as a whole. -/
theorem whole (h : Lasts read n j x) {outer : Nat} (hn : n + outer ≤ maxDepth) :
    Lasts (Json.whole outer read) n j x := by
  refine ⟨?_, h.faithful, h.depth⟩
  have hdepth : j.depth + outer ≤ maxDepth := Nat.le_trans (Nat.add_le_add_right h.depth _) hn
  simp [Json.whole, h.faithful.legible, hdepth, h.reads]

theorem list {xs : List α} (h : ∀ x ∈ xs, Lasts read n (write x) x) :
    Lasts (asList read) (n + 1) (.list (xs.map write)) xs :=
  ⟨mapM_eq_some fun x hx => (h x hx).reads, faithful_list fun x hx => (h x hx).faithful,
    depth_map_list_le fun x hx => (h x hx).depth⟩

/-- A dictionary lasts if its entries do. -/
theorem dict {d : Dict α} (hsorted : Dict.Sorted d)
    (h : ∀ entry ∈ d, Lasts read n (write entry.2) entry.2) :
    Lasts (asDict read) (n + 1) (Dict.toJson write d) d :=
  ⟨asDict_eq hsorted fun entry hentry => (h entry hentry).reads,
    faithful_dict fun entry hentry => (h entry hentry).faithful,
    depth_dict_le fun entry hentry => (h entry hentry).depth⟩

/-- A record lasts if it is read from its members, and these are printed without loss. -/
theorem record {members : List (String × Json)} (hreads : read (.object members) = some x)
    (hmembers : ∀ member ∈ members, Faithful member.2 ∧ member.2.depth ≤ n) :
    Lasts read (n + 1) (.object members) x :=
  ⟨hreads, .object fun member hmember => (hmembers member hmember).1,
    depth_object_le fun member hmember => (hmembers member hmember).2⟩

end Lasts
end Json

/-! ## Types -/

open Json (Faithful Lasts)

namespace ScriptType

variable {t : ScriptType}

/-- A type is read from its own document by every reader that knows its kind by the word, with any
fuel that covers the nesting of it. -/
theorem Ordered.reads (h : t.Ordered) :
    ∀ {readKind : Json → Option String} (fuel : Nat), (∀ s, readKind (.text s) = some s) →
      t.toJson.depth ≤ fuel → readJson readKind fuel t.toJson = some t := by
  -- The kind is the word in the member `kind`.
  have hkind : ∀ {readKind : Json → Option String} {kind : String} {rest : List (String × Json)},
      (∀ s, readKind (.text s) = some s) → (∀ member ∈ rest, member.1 ≠ "kind") →
        Json.asTagged readKind layout (.object (("kind", .text kind) :: rest)) =
          some (kind, ("kind", .text kind) :: rest) := by
    intro readKind kind rest hwords hrest
    have hnone : rest.filter (fun member => member.1 == "kind") = [] :=
      List.filter_eq_nil_iff.2 fun member hmember heq => hrest member hmember (eq_of_beq heq)
    simp [Json.asTagged, Json.required, Json.member?, Json.occurrences, hnone, hwords]
  induction h with
  | primitive p =>
      intro readKind fuel hwords hfuel
      have hpos := (ScriptType.primitive p).depth_pos
      cases fuel with
      | zero => omega
      | succ fuel =>
          rw [toJson, readJson, hkind hwords (by simp)]
          cases p <;> rfl
  | @array element _ ih =>
      intro readKind fuel hwords hfuel
      have hdepth := element.depth_array
      cases fuel with
      | zero => omega
      | succ fuel =>
          have hread : readJson readKind (fuel + 1) (toJson (.array element)) =
              (readJson (Json.asWordOrPlace kinds) fuel element.toJson).map .array := by
            rw [toJson, readJson, hkind hwords (by simp)]
            rfl
          rw [hread, ih fuel (fun _ => rfl) (by omega)]
          rfl
  | @map value _ ih =>
      intro readKind fuel hwords hfuel
      have hdepth := value.depth_map
      cases fuel with
      | zero => omega
      | succ fuel =>
          have hread : readJson readKind (fuel + 1) (toJson (.map value)) =
              (readJson (Json.asWordOrPlace kinds) fuel value.toJson).map .map := by
            rw [toJson, readJson, hkind hwords (by simp)]
            rfl
          rw [hread, ih fuel (fun _ => rfl) (by omega)]
          rfl
  | @object typeName fields hsorted _ ih =>
      intro readKind fuel hwords hfuel
      have hpos := depth_object_pos typeName fields
      cases fuel with
      | zero => omega
      | succ fuel =>
          have hread : ∀ members, readJson readKind (fuel + 1) (.object [("kind", .text "object"),
              ("typeName", .text typeName), ("fields", members)]) =
                (Json.asDict (readJson (Json.asWordOrPlace kinds) fuel) members).bind
                  fun fields => some (.object typeName fields) := by
            intro members
            rw [readJson, hkind hwords (by simp)]
            rfl
          -- The fields are nested two levels less deep than the type.
          have hfields : Json.asDict (readJson (Json.asWordOrPlace kinds) fuel)
              (Dict.toJson toJson fields) = some fields := by
            refine Json.asDict_eq hsorted fun field hfield => ih field hfield fuel (fun _ => rfl) ?_
            have hdepth := depth_field typeName hfield
            omega
          rw [toJson_object, hread, hfields]
          rfl

variable {j : Json}

/-- A type that was read is read again, also if it was written in another way. -/
theorem lasts_of_ofJson (h : ofJson j = some t) : Lasts ofJson j.depth t.toJson t := by
  rcases ordered_of_readJson h with ⟨hordered, hdepth⟩
  exact ⟨hordered.reads _ (fun _ => rfl) (Nat.le_refl _), hordered.faithful, hdepth⟩

/-- The same of a type that is part of what has been read as a whole. -/
theorem lasts_of_ofPart (h : ofPart j = some t) : Lasts ofPart j.depth t.toJson t := by
  rcases ordered_of_readJson h with ⟨hordered, hdepth⟩
  exact ⟨hordered.reads _ (fun _ => rfl) (Nat.le_refl _), hordered.faithful, hdepth⟩

end ScriptType

/-! ## Values -/

namespace Value

variable {v : Value} {P : Float → Prop}

theorem itemsOfJson_eq_mapM (items : List Json) : itemsOfJson items = items.mapM ofJson := by
  induction items with
  | nil => rfl
  | cons item rest ih =>
      rw [itemsOfJson, List.mapM_cons, ih]
      cases ofJson item with
      | none => rfl
      | some value => cases rest.mapM ofJson <;> rfl

theorem entriesOfJson_eq_mapM (members : List (String × Json)) :
    entriesOfJson members =
      members.mapM fun member => (ofJson member.2).map fun value => (member.1, value) := by
  induction members with
  | nil => rfl
  | cons member rest ih =>
      rcases member with ⟨name, value⟩
      rw [entriesOfJson, List.mapM_cons, ih]
      cases ofJson value with
      | none => rfl
      | some value =>
          cases rest.mapM fun member => (ofJson member.2).map fun value => (member.1, value) <;> rfl

/-- A list is read like a list of values, and a map like a dictionary of values. -/
theorem ofJson_list (items : List Json) :
    ofJson (.list items) = (Json.asList ofJson (.list items)).map .list := by
  rw [ofJson, itemsOfJson_eq_mapM, Json.asList]

theorem ofJson_object (members : List (String × Json)) :
    ofJson (.object members) = (Json.asDict ofJson (.object members)).map .map := by
  rw [ofJson, entriesOfJson_eq_mapM, Json.asDict, Option.map_map]
  rfl

/-- The numbers of a value are those of the document it is read from. -/
theorem sound_of_ofJson {j : Json} (hj : j.AllFinite) (h : ofJson j = some v) :
    v.Sound (fun x => x.isFinite = true) ∧ v.toJson.depth ≤ j.depth := by
  induction hj generalizing v with
  | null => cases h
  | unreadable => cases h
  | bool b =>
      cases h
      exact ⟨.bool b, Nat.le_refl _⟩
  | number hfinite =>
      cases h
      exact ⟨.number hfinite, Nat.le_refl _⟩
  | text s =>
      cases h
      exact ⟨.text s, Nat.le_refl _⟩
  | @list items _ ih =>
      rw [ofJson_list] at h
      rcases Option.map_eq_some_iff.1 h with ⟨values, hvalues, rfl⟩
      rcases Json.exists_of_asList hvalues with ⟨parts, hparts, -, hread⟩
      cases hparts
      refine ⟨.list fun value hvalue => ?_, ?_⟩
      · rcases hread value hvalue with ⟨item, hitem, hfound⟩
        exact (ih item hitem hfound).1
      · refine depth_list_le (by simp [Json.depth]) fun value hvalue => ?_
        rcases hread value hvalue with ⟨item, hitem, hfound⟩
        exact Nat.lt_of_le_of_lt (ih item hitem hfound).2 (Json.depth_lt_of_mem_items hitem)
  | @object members _ ih =>
      rw [ofJson_object] at h
      rcases Option.map_eq_some_iff.1 h with ⟨entries, hentries, rfl⟩
      rcases Json.exists_of_asDict hentries with ⟨parts, hparts, hsorted, hread⟩
      cases hparts
      refine ⟨.map hsorted fun entry hentry => ?_, ?_⟩
      · rcases hread entry hentry with ⟨member, hmember, hfound⟩
        exact (ih member hmember hfound).1
      · refine depth_map_le (by simp [Json.depth]) fun entry hentry => ?_
        rcases hread entry hentry with ⟨member, hmember, hfound⟩
        exact Nat.lt_of_le_of_lt (ih member hmember hfound).2
          (Json.depth_lt_of_mem_members hmember)

/-- A value whose numbers are read back is read back itself. -/
theorem Sound.lasts (h : v.Sound Json.ReadsBack) : Lasts ofJson v.toJson.depth v.toJson v := by
  refine ⟨?_, h.faithful, Nat.le_refl _⟩
  induction h with
  | bool b => rfl
  | number _ => rfl
  | text s => rfl
  | @list items _ ih =>
      have hitems : Json.asList ofJson (.list (items.map toJson)) = some items :=
        Json.mapM_eq_some ih
      rw [toJson_list, ofJson_list, hitems]
      rfl
  | @map entries hsorted _ ih =>
      have hentries : Json.asDict ofJson (Dict.toJson toJson entries) = some entries :=
        Json.asDict_eq hsorted ih
      rw [toJson_map, Dict.toJson, ofJson_object, ← Dict.toJson, hentries]
      rfl

end Value

/-! ## Parts of nodes -/

/-- An argument is read again. -/
theorem Argument.lasts (a : Argument) : Lasts ofJson 1 a.toJson a :=
  .record rfl (by simp [Faithful.text, Faithful.bool])

theorem ChoiceOption.lasts (o : ChoiceOption) : Lasts ofJson 1 o.toJson o := by
  refine .record ?_ (by simp [Faithful.text, Faithful.bool, Json.faithful_optionalText])
  rcases o with ⟨id, text, condition, once, fallOver, group⟩
  cases condition <;> rfl

/-- A declaration is read again if its type is. -/
theorem Declaration.lasts {d : Declaration} {n : Nat}
    (h : Lasts ScriptType.ofPart n d.type.toJson d.type) : Lasts ofJson (n + 1) d.toJson d := by
  have hread : ofJson d.toJson =
      (ScriptType.ofPart d.type.toJson).bind fun type => some ⟨d.name, type, d.initial⟩ := by
    rcases d with ⟨name, type, initial⟩
    cases initial <;> rfl
  refine .record ?_ (by simp [Faithful.text, Json.faithful_optionalText, h.faithful, h.depth])
  rw [← toJson, hread, h.reads]
  rfl

/-- A parameter is read again if its type is, and is not nested too deep for a bundle. -/
theorem Param.lasts {param : Param} {n : Nat} (hn : n + 5 ≤ Json.maxDepth)
    (h : Lasts ScriptType.ofJson n param.type.toJson param.type) :
    Lasts ofJson (n + 1) param.toJson param := by
  have hread : ofJson param.toJson = (Json.whole 5 ScriptType.ofJson param.type.toJson).bind
      fun type => some ⟨param.name, type, param.byRef⟩ := rfl
  refine .record ?_ (by simp [Faithful.text, Faithful.bool, h.faithful, h.depth])
  rw [← toJson, hread, (h.whole hn).reads]
  rfl

/-! ## Nodes -/

namespace Node

variable {node : Node} {n : Nat}

/-- A node is read again if the type that it declares is. -/
theorem reads (h : ∀ id d, node = .declare id d →
    Lasts ScriptType.ofPart n d.type.toJson d.type) : ofJson node.toJson = some node := by
  have harguments := fun arguments : List Argument =>
    (Lasts.list fun (a : Argument) (_ : a ∈ arguments) => a.lasts).reads
  cases node with
  | text id value once => rfl
  | code id source => rfl
  | declare id d =>
      have hread : ofJson (toJson (.declare id d)) =
          (Declaration.ofJson d.toJson).bind fun d => some (.declare id d) := rfl
      rw [hread, (Declaration.lasts (h id d rfl)).reads]
      rfl
  | branch id condition yes no => cases no <;> rfl
  | loop id condition body => rfl
  | choice id prompt options =>
      have hoptions := (Lasts.list fun (o : ChoiceOption) (_ : o ∈ options) => o.lasts).reads
      have hread : ofJson (toJson (.choice id prompt options)) =
          (Json.asList ChoiceOption.ofJson (.list (options.map ChoiceOption.toJson))).bind
            fun options => some (.choice id prompt options) := by
        cases prompt <;> rfl
      rw [hread, hoptions]
      rfl
  | call id target arguments =>
      have hread : ofJson (toJson (.call id target arguments)) =
          (Json.asList Argument.ofJson (.list (arguments.map Argument.toJson))).bind
            fun arguments => some (.call id target arguments) := rfl
      rw [hread, harguments]
      rfl
  | finish id target arguments =>
      have hread : ofJson (toJson (.finish id target arguments)) =
          (Json.asList Argument.ofJson (.list (arguments.map Argument.toJson))).bind
            fun arguments => some (.finish id target arguments) := by
        cases target <;> rfl
      rw [hread, harguments]
      rfl
  | leave id => rfl
  | again id => rfl
  | unknown => rfl

/-- A node is nested little deeper than the type that it declares. -/
theorem lasts (h : ∀ id d, node = .declare id d →
    Lasts ScriptType.ofPart n d.type.toJson d.type) (hn : 1 ≤ n) :
    Lasts ofJson (n + 2) node.toJson node := by
  have hreads := reads h
  -- Options and arguments are flat, so lists of them fit in any case.
  have hlist : ∀ {α : Type} {read : Json → Option α} {write : α → Json} {xs : List α},
      (∀ x, Lasts read 1 (write x) x) →
        Faithful (.list (xs.map write)) ∧ (Json.list (xs.map write)).depth ≤ n + 1 := by
    intro α read write xs hparts
    have hxs := Lasts.list fun x (_ : x ∈ xs) => hparts x
    exact ⟨hxs.faithful, Nat.le_trans hxs.depth (Nat.succ_le_succ hn)⟩
  cases node with
  | declare id d =>
      have hd := Declaration.lasts (h id d rfl)
      exact .record hreads (by simp [Faithful.text, hd.faithful, hd.depth])
  | choice id prompt options =>
      have hoptions := @hlist _ _ _ options ChoiceOption.lasts
      exact .record hreads (by simp [Faithful.text, Json.faithful_optionalText, hoptions])
  | call id target arguments =>
      have harguments := @hlist _ _ _ arguments Argument.lasts
      exact .record hreads (by simp [Faithful.text, harguments])
  | finish id target arguments =>
      have harguments := @hlist _ _ _ arguments Argument.lasts
      exact .record hreads (by simp [Faithful.text, Json.faithful_optionalText, harguments])
  | _ =>
      exact .record hreads
        (by simp [Faithful.text, Faithful.bool, Json.faithful_optionalText])

end Node

/-! ## Groups and scripts -/

/-- A parameter that was read is read again. -/
theorem param_lasts : Json.Yields Param.ofJson fun param =>
    Lasts Param.ofJson (Json.maxDepth - 4) param.toJson param := by
  intro j param h
  rcases Param.parts_of_ofJson h with ⟨members, -, htype⟩
  rcases Json.exists_of_required htype with ⟨member, -, hread⟩
  rcases Json.of_whole hread with ⟨hdepth, hread⟩
  exact (Param.lasts hdepth (ScriptType.lasts_of_ofJson hread)).mono (by omega)

/-- What was read as a whole is small enough to be read as a whole again. -/
theorem node_lasts : Json.Yields (Json.whole 6 Node.ofJson) fun node =>
    Lasts (Json.whole 6 Node.ofJson) (Json.maxDepth - 6) node.toJson node := by
  intro j node h
  rcases Json.of_whole h with ⟨hdepth, hread⟩
  have hroom : 9 ≤ Json.maxDepth := by decide
  have hnode : Lasts Node.ofJson (max 1 (j.depth - 2) + 2) node.toJson node := by
    refine Node.lasts (fun id d hd => ?_) (Nat.le_max_left _ _)
    rcases Node.parts_of_ofJson hread with ⟨members, hmembers, hparts⟩
    subst hd
    -- A type lies two levels deep in the document of the node.
    rcases Json.exists_of_required hparts with ⟨member, hmember, hdeclaration⟩
    rcases Declaration.parts_of_ofJson hdeclaration with ⟨inner, hinner, htype⟩
    rcases Json.exists_of_required htype with ⟨part, hpart, htype⟩
    have hmember' := Json.depth_lt_of_mem_parts (hmembers member hmember)
    have hpart' := Json.depth_lt_of_mem_parts (hinner part hpart)
    exact (ScriptType.lasts_of_ofPart htype).mono (by omega)
  exact (hnode.mono (by omega)).whole (by omega)

/-- A group that was read is read again: its nodes were small enough to be read as a whole. -/
theorem group_lasts : Json.Yields Group.ofJson fun g =>
    Lasts Group.ofJson (Json.maxDepth - 4) g.toJson g := by
  intro j g h
  rcases Group.parts_of_ofJson h with ⟨members, -, hnodes⟩
  have hlist := Lasts.list (node_lasts.asList.required hnodes)
  have hread : Group.ofJson g.toJson =
      (Json.asList (Json.whole 6 Node.ofJson) (.list (g.nodes.map Node.toJson))).bind
        fun nodes => some ⟨g.id, g.parent, nodes⟩ := by
    rcases g with ⟨id, parent, nodes⟩
    cases parent <;> rfl
  have hroom : 9 ≤ Json.maxDepth := by decide
  have hrecord : Lasts Group.ofJson (Json.maxDepth - 6 + 1 + 1) g.toJson g := by
    refine .record ?_ (by
      simp [Faithful.text, Json.faithful_optionalText, hlist.faithful, hlist.depth])
    rw [← Group.toJson, hread, hlist.reads]
    rfl
  exact hrecord.mono (by omega)

/-- A script that was read is read again. -/
theorem script_lasts : Json.Yields Script.ofJson fun script =>
    Lasts Script.ofJson (Json.maxDepth - 2) script.toJson script := by
  intro j script h
  rcases Script.parts_of_ofJson h with ⟨members, -, hparams, hgroups⟩
  have hlist := Lasts.list (param_lasts.asList.defaulted (by simp) hparams)
  rcases group_lasts.asDict.required hgroups with ⟨hsorted, hparts⟩
  have hdict := Lasts.dict hsorted hparts
  have hnames : Lasts (Json.asList Json.asText) 1 (.list (script.visibleGlobals.map .text))
      script.visibleGlobals := Lasts.list fun name _ => ⟨rfl, .text name, Nat.le_refl _⟩
  have hread : Script.ofJson script.toJson =
      (Json.asList Param.ofJson (.list (script.params.map Param.toJson))).bind fun params =>
        (Json.asDict Group.ofJson (Dict.toJson Group.toJson script.groups)).bind fun groups =>
          (Json.asList Json.asText (.list (script.visibleGlobals.map .text))).bind fun names =>
            some ⟨script.name, params, script.root, groups, names⟩ := rfl
  have hroom : 9 ≤ Json.maxDepth := by decide
  have hdepth : 1 ≤ Json.maxDepth - 4 + 1 := by omega
  have hrecord : Lasts Script.ofJson (Json.maxDepth - 4 + 1 + 1) script.toJson script := by
    refine .record ?_ (by simp [Faithful.text, hlist.faithful, hlist.depth, hdict.faithful,
      hdict.depth, hnames.faithful, Nat.le_trans hnames.depth hdepth])
    rw [← Script.toJson, hread, hlist.reads, hdict.reads, hnames.reads]
    rfl
  exact hrecord.mono (by omega)

/-! ## Bundles -/

/-- The number occurs in a document that scripts may read. -/
def Bundle.Holds (x : Float) (b : Bundle) : Prop :=
  ∃ entry ∈ b.globals, entry.2.Holds x

/-- The documents of a bundle are in order; their numbers are finite and they are not nested too
deep. -/
theorem sound_globals {j : Json} {b : Bundle} (hj : j.AllFinite) (h : Bundle.ofJson j = some b) :
    Dict.Sorted b.globals ∧ ∀ entry ∈ b.globals,
      entry.2.Sound (fun x => x.isFinite = true) ∧ entry.2.toJson.depth + 2 ≤ Json.maxDepth := by
  rcases Bundle.parts_of_ofJson h with ⟨members, hmembers, -, hglobals⟩
  rcases Json.exists_of_defaulted hglobals with hnone | ⟨member, hmember, hread⟩
  · rw [hnone]
    exact ⟨List.Pairwise.nil, by simp⟩
  · rcases Json.exists_of_asDict hread with ⟨inner, hinner, hsorted, hparts⟩
    refine ⟨hsorted, fun entry hentry => ?_⟩
    rcases hparts entry hentry with ⟨part, hpart, hread⟩
    rcases Json.of_whole hread with ⟨hdepth, hread⟩
    have hfinite := hj.part (hmembers member hmember)
    rw [hinner] at hfinite
    rcases Value.sound_of_ofJson (hfinite.part (List.mem_map_of_mem hpart)) hread with
      ⟨hsound, hbound⟩
    exact ⟨hsound, Nat.le_trans (Nat.add_le_add_right hbound _) hdepth⟩

/-- What is read from a document of finite numbers is read again, if its numbers are read back. -/
theorem Bundle.lasts {j : Json} {b : Bundle} (hj : j.AllFinite) (h : ofJson j = some b)
    (hnumbers : ∀ x, x.isFinite = true → b.Holds x → Json.ReadsBack x) :
    Lasts ofJson Json.maxDepth b.toJson b := by
  rcases Bundle.parts_of_ofJson h with ⟨members, -, hscripts, -⟩
  rcases script_lasts.asDict.required hscripts with ⟨hsorted, hparts⟩
  have hdict := Lasts.dict hsorted hparts
  rcases sound_globals hj h with ⟨hsorted', hsound⟩
  -- A document lies two levels down, and those count when its depth is checked.
  have hvalues : Lasts (Json.asDict (Json.whole 2 Value.ofJson)) (Json.maxDepth - 2 + 1)
      (Dict.toJson Value.toJson b.globals) b.globals := by
    refine Lasts.dict hsorted' fun entry hentry => ?_
    rcases hsound entry hentry with ⟨hfinite, hdepth⟩
    have hback : entry.2.Sound Json.ReadsBack := hfinite.mono fun x hx hholds =>
      hnumbers x hx ⟨entry, hentry, hholds⟩
    exact (hback.lasts.mono (by omega)).whole (by omega)
  have hread : ofJson b.toJson =
      (Json.asDict Script.ofJson (Dict.toJson Script.toJson b.scripts)).bind fun scripts =>
        (Json.asDict (Json.whole 2 Value.ofJson) (Value.dictToJson b.globals)).bind fun globals =>
          some ⟨scripts, b.entry, globals, b.version⟩ := by
    rcases b with ⟨scripts, entry, globals, version⟩
    cases entry <;> cases version <;> rfl
  rw [← Value.dictToJson_eq] at hvalues
  have hroom : 9 ≤ Json.maxDepth := by decide
  have hrecord : Lasts ofJson (Json.maxDepth - 2 + 1 + 1) b.toJson b := by
    refine .record ?_ (by simp [Json.faithful_optionalText, hdict.faithful, hdict.depth,
      hvalues.faithful, hvalues.depth])
    rw [← Bundle.toJson, hread, hdict.reads, hvalues.reads]
    rfl
  exact hrecord.mono (by omega)

/-- A bundle that is read from a text holds finite numbers only.  If these are read back as they are
printed, then the text of the bundle is one that every reader accepts, and it is read as this bundle
again.  So reading and writing once more changes nothing in this text. -/
theorem load_encode {text : String} {words : Json.Words} {b : Bundle}
    (h : Bundle.load text words = .ok b) :
    (∀ x, b.Holds x → x.isFinite = true) ∧
    ((∀ x, x.isFinite = true → b.Holds x → Json.ReadsBack x) →
      Json.parse b.encode = some b.toJson ∧
      Bundle.load b.encode words = .ok b ∧
      (Bundle.load b.encode words).map Bundle.encode = .ok b.encode) := by
  rcases Bundle.exists_of_load h with ⟨j, hparse, hj⟩
  have hfinite := Json.allFinite_of_parseForm hparse
  refine ⟨fun x hx => ?_, fun hnumbers => ?_⟩
  · rcases hx with ⟨entry, hentry, hholds⟩
    exact ((sound_globals hfinite hj).2 entry hentry).1.of_holds hholds
  · have hlasts := Bundle.lasts hfinite hj hnumbers
    have hload : Bundle.load b.encode words = .ok b := by
      rw [Bundle.load, Bundle.encode, Json.parseForm_print, hlasts.faithful.reread,
        Option.bind_some, hlasts.reads]
    refine ⟨Json.parse_print hlasts.faithful hlasts.depth, hload, ?_⟩
    rw [hload]
    rfl

/-- A bundle with a node of a kind that nobody knows and members in no order; what may be left out is
left out.  Its script, a node, a declaration and a type are lists; in them a kind is a place and a word
is an object. -/
def almanacTale.text : String :=
  "\x7b\"scripts\":\x7b\"main\":[\"main\",[],\"main\"," ++
  "\x7b\"main\":\x7b\"groupId\":\"main\",\"nodes\":[\x7b\"kind\":\"dance\"," ++
  "\"steps\":[1]\x7d,[\"var\",\"v\",[\"m\",[2,\x7b\"kind\":0," ++
  "\"name\":\x7b\"number\":\x7b\x7d\x7d\x7d]]],\x7b\"kind\":\"call\",\"id\":\"c\"," ++
  "\"targetScript\":\"main\"\x7d]\x7d\x7d]\x7d," ++
  "\"globalJson\":\x7b\"odds\":[10,\x7b\"b\":true,\"a\":\"x\"\x7d]\x7d\x7d"

def almanacTale.bundle : Bundle where
  scripts := [("main", ⟨"main", [], "main",
    [("main", ⟨"main", none, [.unknown,
      .declare "v" ⟨"m", .map (.primitive .number), none⟩, .call "c" "main" []]⟩)], []⟩)]
  entry := none
  globals := [("odds", .list [.number 10, .map [("a", .text "x"), ("b", .bool true)]])]
  version := none

set_option maxRecDepth 4000 in
/-- The text is accepted as this bundle. -/
theorem almanacTale.load_text :
    Bundle.load almanacTale.text = .ok almanacTale.bundle := by
  obtain ⟨cs, hcs, hread⟩ : ∃ cs, almanacTale.text = .ofList cs ∧
      (Json.parseChars cs).bind Bundle.ofJson = some almanacTale.bundle := by
    have htext : almanacTale.text = .ofList _ :=
      append_eq_ofList (append_eq_ofList (append_eq_ofList (append_eq_ofList (append_eq_ofList
        rfl rfl) rfl) rfl) rfl) rfl
    exact ⟨_, htext, rfl⟩
  have hform : Json.parseForm almanacTale.text = Json.parseChars cs := by
    rw [hcs, Json.parseForm, String.toList_ofList]
  rw [Bundle.load, hform, hread]

/-- There is one number in its document. -/
theorem almanacTale.holds {x : Float} (h : almanacTale.bundle.Holds x) : x = 10 := by
  rcases h with ⟨entry, hentry, hx⟩
  rcases List.mem_singleton.1 hentry with rfl
  cases hx with
  | list hitem hx =>
      rcases List.mem_cons.1 hitem with rfl | hitem
      · cases hx
        rfl
      · rcases List.mem_singleton.1 hitem with rfl
        cases hx with
        | map hentry hx =>
            rcases List.mem_cons.1 hentry with rfl | hentry
            · cases hx
            · rcases List.mem_singleton.1 hentry with rfl
              cases hx

/-- What was written with lists and places is written with names, and read as the same bundle. -/
theorem load_encode_almanacTale :
    Bundle.load almanacTale.text = .ok almanacTale.bundle ∧
      Json.parse almanacTale.bundle.encode = some almanacTale.bundle.toJson ∧
      Bundle.load almanacTale.bundle.encode = .ok almanacTale.bundle := by
  rcases (load_encode almanacTale.load_text).2 fun x _ hx =>
    almanacTale.holds hx ▸ readsBack_ten with ⟨hparse, hload, -⟩
  exact ⟨almanacTale.load_text, hparse, hload⟩

end StoryPlayer
