import StoryPlayer.Proofs.Measured
import StoryPlayer.Proofs.Reading
import StoryPlayer.Proofs.Tidy

/-!
# Stories that are read are tidy

- `Node.partsRead_ofMembers` goes through the kinds of nodes,
- `tidy_script` and its relatives show that the parts of a bundle are tidy,
- `load_tidy` concludes that every story is tidy that is made from the text of a bundle.
-/

namespace StoryPlayer

/-! ## Documents -/

namespace Json

/-- What is inside of a narrow document is narrow. -/
theorem Narrow.part {n : Nat} {j part : Json} (h : j.Narrow n) (hpart : part ∈ j.parts) :
    part.Narrow n := by
  cases h with
  | list _ hitems => exact hitems part hpart
  | object hmembers =>
      rcases List.mem_map.1 hpart with ⟨member, hmember, rfl⟩
      exact hmembers member hmember
  | _ => cases hpart

/-- A list of a narrow document is no longer than the bound. -/
theorem Narrow.length {n : Nat} {items : List Json} (h : Narrow n (.list items)) :
    items.length ≤ n := by
  cases h with
  | list hlength _ => exact hlength

end Json

/-! ## Scripts -/

/-- A type is in order, and nested no deeper than the document it is read from. -/
theorem ScriptType.tidy_of_readJson {readKind : Json → Option String} {fuel : Nat} {j : Json}
    {t : ScriptType} (h : readJson readKind fuel j = some t) (hdepth : j.depth ≤ maxDepth) :
    t.Tidy := by
  rcases ordered_of_readJson h with ⟨hordered, hbound⟩
  exact ⟨hordered, Nat.le_trans hbound hdepth⟩

/-- The document of a parameter is read as a whole, so its type is not nested too deep. -/
theorem tidy_param {j : Json} {param : Param} (h : Param.ofJson j = some param) :
    param.type.Tidy := by
  rcases Param.parts_of_ofJson h with ⟨members, -, htype⟩
  rcases Json.exists_of_required htype with ⟨member, -, hread⟩
  rcases Json.of_whole hread with ⟨hdepth, hread⟩
  exact ScriptType.tidy_of_readJson hread (Nat.le_of_add_le_add_right hdepth)

/-- The type of a declaration is nested less deep than the node around it. -/
theorem tidy_declaration {j : Json} {d : Declaration} (h : Declaration.ofJson j = some d)
    (hdepth : j.depth ≤ ScriptType.maxDepth) : d.type.Tidy := by
  rcases Declaration.parts_of_ofJson h with ⟨members, hinside, htype⟩
  rcases Json.exists_of_required htype with ⟨member, hmember, hread⟩
  have hdeep := Json.depth_lt_of_mem_parts (hinside member hmember)
  exact ScriptType.tidy_of_readJson hread (by omega)

variable {n : Nat}

section Options

variable {α β : Type} {P : β → Prop}

/-- What holds of all results of the second computation holds of those of both. -/
theorem forall_mem_bind {o : Option α} {f : α → Option β} (h : ∀ x ∈ o, ∀ y ∈ f x, P y) :
    ∀ y ∈ o >>= f, P y := by
  intro y hy
  rcases Option.bind_eq_some_iff.1 hy with ⟨x, hx, hfound⟩
  exact h x hx y hfound

theorem forall_mem_pure {x : β} (h : P x) : ∀ y ∈ (pure x : Option β), P y := by
  intro y hy
  cases hy
  exact h

theorem forall_mem_ite {c : Prop} [Decidable c] {a b : Option β} (ha : ∀ y ∈ a, P y)
    (hb : ∀ y ∈ b, P y) : ∀ y ∈ (if c then a else b), P y := by
  split
  · exact ha
  · exact hb

end Options

/-- The declaration of the node, or its options, are read from a member. -/
def Node.PartsRead (members : List (String × Json)) : Node → Prop
  | .declare _ d => Json.required members "declaration" Declaration.ofJson = some d
  | .choice _ _ options =>
    Json.required members "options" (Json.asList ChoiceOption.ofJson) = some options
  | _ => True

/-- Whatever the kind, the parts of a node are read from its members. -/
theorem Node.partsRead_ofMembers {kind : String} {members : List (String × Json)} :
    ∀ node ∈ ofMembers kind members, node.PartsRead members := by
  have hplain : ∀ node : Node, node.PartsRead members →
      ∀ found ∈ (pure node : Option Node), found.PartsRead members :=
    fun node => forall_mem_pure
  -- The kinds in the order in which they are tried.
  unfold ofMembers
  apply forall_mem_ite
  · exact forall_mem_bind fun id _ => forall_mem_bind fun value _ => forall_mem_bind fun once _ =>
      hplain (.text id value once) trivial
  apply forall_mem_ite
  · exact forall_mem_bind fun id _ => forall_mem_bind fun source _ =>
      hplain (.code id source) trivial
  apply forall_mem_ite
  · exact forall_mem_bind fun id _ => forall_mem_bind fun d hd =>
      hplain (.declare id d) hd
  apply forall_mem_ite
  · exact forall_mem_bind fun id _ => forall_mem_bind fun condition _ =>
      forall_mem_bind fun yes _ => forall_mem_bind fun no _ =>
        hplain (.branch id condition yes no) trivial
  apply forall_mem_ite
  · exact forall_mem_bind fun id _ => forall_mem_bind fun condition _ =>
      forall_mem_bind fun body _ => hplain (.loop id condition body) trivial
  apply forall_mem_ite
  · exact forall_mem_bind fun id _ => forall_mem_bind fun prompt _ =>
      forall_mem_bind fun options hfound =>
        hplain (.choice id prompt options) hfound
  apply forall_mem_ite
  · exact forall_mem_bind fun id _ => forall_mem_bind fun target _ =>
      forall_mem_bind fun arguments _ => hplain (.call id target arguments) trivial
  apply forall_mem_ite
  · exact forall_mem_bind fun id _ => forall_mem_bind fun target _ =>
      forall_mem_bind fun arguments _ => hplain (.finish id target arguments) trivial
  apply forall_mem_ite
  · exact forall_mem_bind fun id _ => hplain (.leave id) trivial
  apply forall_mem_ite
  · exact forall_mem_bind fun id _ => hplain (.again id) trivial
  exact hplain .unknown trivial

/-- Whether a node is an object or a list, its parts are read from parts of its document. -/
theorem Node.parts_of_ofJson {j : Json} {node : Node} (h : ofJson j = some node) :
    ∃ members, j.Comprises members ∧ node.PartsRead members := by
  rcases Option.bind_eq_some_iff.1 h with ⟨⟨kind, members⟩, hmembers, hrest⟩
  exact ⟨members, Json.comprises_of_asTagged hmembers, partsRead_ofMembers node hrest⟩

/-- Only declarations and choices have parts that matter. -/
theorem tidy_node {j : Json} {node : Node} (hn : n ≤ Json.maxSignificand) (hj : j.Narrow n)
    (hdepth : j.depth ≤ ScriptType.maxDepth) (h : Node.ofJson j = some node) : node.Tidy := by
  rcases Node.parts_of_ofJson h with ⟨members, hinside, hparts⟩
  cases node with
  | declare id d =>
      rcases Json.exists_of_required hparts with ⟨member, hmember, hread⟩
      have hdeep := Json.depth_lt_of_mem_parts (hinside member hmember)
      exact tidy_declaration hread (by omega)
  | choice id prompt options =>
      rcases Json.exists_of_required hparts with ⟨member, hmember, hread⟩
      rcases Json.exists_of_asList hread with ⟨items, hitems, hlength, -⟩
      have hnarrow := hj.part (hinside member hmember)
      rw [hitems] at hnarrow
      have hcount : options.length ≤ n := hlength ▸ hnarrow.length
      exact Nat.le_trans hcount hn
  | _ => trivial

/-- In a narrow document there are few enough nodes and options to be numbered. -/
theorem tidy_group {j : Json} {g : Group} (hn : n ≤ Json.maxSignificand) (hj : j.Narrow n)
    (h : Group.ofJson j = some g) : g.Tidy := by
  rcases Group.parts_of_ofJson h with ⟨members, hinside, hnodes⟩
  rcases Json.exists_of_required hnodes with ⟨member, hmember, hread⟩
  rcases Json.exists_of_asList hread with ⟨items, hitems, hlength, hparts⟩
  have hnarrow := hj.part (hinside member hmember)
  rw [hitems] at hnarrow
  refine ⟨?_, fun node hnode => ?_⟩
  · have hcount : g.nodes.length ≤ n := hlength ▸ hnarrow.length
    exact Nat.le_trans hcount hn
  · rcases hparts node hnode with ⟨item, hitem, hread⟩
    rcases Json.of_whole hread with ⟨hdepth, hread⟩
    have hbound : item.depth ≤ Json.maxDepth - 6 := by omega
    exact tidy_node hn (hnarrow.part hitem) (Nat.le_trans hbound (by decide)) hread

theorem tidy_script {j : Json} {s : Script} (hn : n ≤ Json.maxSignificand) (hj : j.Narrow n)
    (h : Script.ofJson j = some s) : s.Tidy := by
  rcases Script.parts_of_ofJson h with ⟨members, hinside, hparams, hgroups⟩
  refine ⟨fun param hparam => ?_, fun entry hentry => ?_⟩
  · rcases Json.exists_of_defaulted hparams with hnone | ⟨member, -, hread⟩
    · rw [hnone] at hparam
      cases hparam
    · rcases Json.exists_of_asList hread with ⟨items, -, -, hparts⟩
      rcases hparts param hparam with ⟨item, -, hread⟩
      exact tidy_param hread
  · rcases Json.exists_of_required hgroups with ⟨member, hmember, hread⟩
    rcases Json.exists_of_asDict hread with ⟨inner, hinner, -, hparts⟩
    have hnarrow := hj.part (hinside member hmember)
    rw [hinner] at hnarrow
    rcases hparts entry hentry with ⟨part, hpart, hread⟩
    exact tidy_group hn (hnarrow.part (List.mem_map_of_mem hpart)) hread

/-- All scripts of a bundle that is read are tidy. -/
theorem tidy_bundle {j : Json} {b : Bundle} (hn : n ≤ Json.maxSignificand) (hj : j.Narrow n)
    (h : Bundle.ofJson j = some b) : ∀ entry ∈ b.scripts, entry.2.Tidy := by
  rcases Bundle.parts_of_ofJson h with ⟨members, hinside, hscripts, -⟩
  rcases Json.exists_of_required hscripts with ⟨member, hmember, hread⟩
  rcases Json.exists_of_asDict hread with ⟨inner, hinner, -, hparts⟩
  have hnarrow := hj.part (hinside member hmember)
  rw [hinner] at hnarrow
  intro entry hentry
  rcases hparts entry hentry with ⟨part, hpart, hread⟩
  exact tidy_script hn (hnarrow.part (List.mem_map_of_mem hpart)) hread

/-- Every story is tidy that is made from the text of a bundle whose characters can be counted. -/
theorem load_tidy {text : String} {words : Json.Words} {bundle : Bundle} {seed : Option UInt32}
    {host : HostFunctions} {evaluator : Formula.Evaluator} {story : Story}
    (hlength : text.length < 2 ^ 64) (hload : Bundle.load text words = .ok bundle)
    (hmake : Story.make bundle seed host evaluator = .ok story) : story.Tidy := by
  have hn : text.length ≤ Json.maxSignificand := Nat.le_of_lt_succ hlength
  rcases Bundle.exists_of_load hload with ⟨j, hparse, hj⟩
  unfold Story.Tidy
  rw [scripts_of_make hmake]
  exact tidy_bundle hn (Json.narrow_of_parseForm hparse) hj

end StoryPlayer
