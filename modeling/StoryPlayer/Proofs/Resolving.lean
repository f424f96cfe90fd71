import StoryPlayer.Proofs.Committing
import StoryPlayer.Proofs.Documents
import StoryPlayer.Proofs.Places

/-!
# What names mean

A name is resolved in two ways: it is searched for when it is read or written, and it is collected
with all others for a formula.  Both find the same.

- `Frames.Declares` says what a name means as a variable, `Frames.Shows` what it means as a
  document, `Frames.Free` that it is no variable,
- `value?_eq_some` is about the search, `mem_collect` and `mem_documents_iff` are about the
  collection,
- `resolution_agrees` concludes that reading and writing agree with the list of bindings.
-/

namespace StoryPlayer
namespace Frames

variable {story : Story} {frames : List Frame} {name : String} {value : Value}

/-- The innermost frame that declares the name has this value for it. -/
def Declares (frames : List Frame) (name : String) (value : Value) : Prop :=
  ∃ above f under, frames = above ++ f :: under ∧
    (∀ g ∈ above, Dict.contains g.scope name = false) ∧ Dict.get? f.scope name = some value

/-- No frame declares the name. -/
def Free (frames : List Frame) (name : String) : Prop :=
  ∀ f ∈ frames, Dict.contains f.scope name = false

/-- The name is that of a document with this value, which is open to the script that the innermost
frame belongs to. -/
def Shows (story : Story) (frames : List Frame) (name : String) (value : Value) : Prop :=
  ∃ top below owner script, frames = top :: below ∧ story.owner? top.group = some owner ∧
    Dict.get? story.scripts owner = some script ∧ name ∈ script.visibleGlobals ∧
    Dict.get? story.globals name = some value

/-! ## The search -/

/-- A name without a value is declared nowhere. -/
theorem value?_eq_none : value? frames name = none ↔ Free frames name := by
  induction frames with
  | nil => simp [Free, value?, declaring?]
  | cons frame below ih =>
      rw [value?_cons, Option.or_eq_none_iff, ih, Free, Free, List.forall_mem_cons]
      simp [Dict.contains]

/-- The value of a name is that of the innermost frame that declares it. -/
theorem value?_eq_some : value? frames name = some value ↔ Declares frames name value := by
  constructor
  · intro h
    rcases Option.bind_eq_some_iff.1 h with ⟨f, hf, hget⟩
    rcases List.find?_eq_some_iff_append.1 hf with ⟨-, above, under, rfl, habove⟩
    exact ⟨above, f, under, rfl, by simpa using habove, hget⟩
  · rintro ⟨above, f, under, rfl, habove, hget⟩
    rw [value?_append habove, value?_cons, hget, Option.some_or]

/-- A name has a value exactly if a frame is found that declares it. -/
theorem isSome_declaring? : (declaring? frames name).isSome = (value? frames name).isSome := by
  cases h : declaring? frames name with
  | none => simp [value?, h]
  | some f =>
      rcases value?_of_declaring h with ⟨found, hfound⟩
      simp [hfound]

/-- A document is seen under its name exactly if the running script shows it. -/
theorem get?_documents :
    Dict.get? (documents story frames) name = some value ↔ Shows story frames name value := by
  cases frames with
  | nil => simp [documents, Shows]
  | cons top below =>
      cases howner : story.owner? top.group with
      | none => simp [documents, Shows, howner]
      | some owner =>
          cases hscript : Dict.get? story.scripts owner with
          | none => simp [documents, Story.visible, Shows, howner, hscript]
          | some script =>
              have hfilter := Dict.get?_filter story.globals script.visibleGlobals name
              simp only [documents, howner, Story.visible, hscript, hfilter,
                Option.ite_none_right_eq_some]
              constructor
              · rintro ⟨hvisible, hget⟩
                exact ⟨top, below, owner, script, rfl, howner, hscript, hvisible, hget⟩
              · rintro ⟨_, _, _, _, hframes, howner', hscript', hvisible, hget⟩
                cases hframes
                cases howner.symm.trans howner'
                cases hscript.symm.trans hscript'
                exact ⟨hvisible, hget⟩

/-- A variable comes before a document of the same name. -/
theorem read_eq_ok : read story frames name = .ok value ↔
    Declares frames name value ∨ Free frames name ∧ Shows story frames name value := by
  rw [← value?_eq_some, ← value?_eq_none, ← get?_documents, read]
  cases hvalue : value? frames name with
  | some found => simp
  | none =>
      cases hdocument : Dict.get? (documents story frames) name with
      | some found => simp
      | none => simp

/-! ## The collection -/

/-- Of the variables of a name the innermost one is collected, if the name was not seen before. -/
theorem mem_collect {seen : List String} (hsorted : ∀ f ∈ frames, Dict.Sorted f.scope) :
    (name, value) ∈ collect seen frames ↔ name ∉ seen ∧ value? frames name = some value := by
  -- By induction on the frames, from the innermost one on; its names are seen by those below it.
  induction frames generalizing seen with
  | nil => simp [collect, value?, declaring?]
  | cons frame below ih =>
      have hframe : (Dict.keys frame.scope).Nodup :=
        Dict.nodup_keys (hsorted frame List.mem_cons_self)
      have hbelow : ∀ f ∈ below, Dict.Sorted f.scope := by
        intro f hf
        exact hsorted f (List.mem_cons_of_mem _ hf)
      have hmem : (name, value) ∈ frame.scope ↔ Dict.get? frame.scope name = some value :=
        ⟨Dict.get?_of_mem hframe, Dict.mem_of_get?⟩
      rw [collect_cons, List.mem_append, List.mem_filter, ih hbelow, hmem, value?_cons]
      cases hget : Dict.get? frame.scope name with
      | none =>
          have hkey : name ∉ Dict.keys frame.scope := by
            simp [← Dict.contains_iff_mem_keys, Dict.contains, hget]
          simp [hkey]
      | some found =>
          -- The frame hides the variables of this name further down.
          have hkey : name ∈ Dict.keys frame.scope := by
            simp [← Dict.contains_iff_mem_keys, Dict.contains, hget]
          simp [hkey, and_comm]

/-- A document is listed exactly if it is open to the script and no variable has its name. -/
theorem mem_documents_iff (hsorted : ∀ f ∈ frames, Dict.Sorted f.scope)
    (hglobals : Dict.Sorted story.globals) :
    (name, value) ∈ (bindings story frames).documents ↔
      Free frames name ∧ Shows story frames name value := by
  have hdocuments : (Dict.keys (documents story frames)).Nodup :=
    Dict.nodup_keys (sorted_documents hglobals)
  have hmem : (name, value) ∈ documents story frames ↔ Shows story frames name value := by
    rw [← get?_documents]
    exact ⟨Dict.get?_of_mem hdocuments, Dict.mem_of_get?⟩
  have hfree : name ∉ Dict.keys (collect [] frames) ↔ Free frames name := by
    rw [← value?_eq_none, Option.eq_none_iff_forall_ne_some, Dict.keys, List.mem_map]
    constructor
    · intro h found hfound
      exact h ⟨(name, found), (mem_collect hsorted).2 ⟨List.not_mem_nil, hfound⟩, rfl⟩
    · rintro h ⟨entry, hentry, rfl⟩
      exact h entry.2 ((mem_collect hsorted).1 hentry).2
  rw [bindings, List.mem_filter, hmem, ← hfree, Dict.keys]
  simp [and_comm]

/-- Formulas are given the value of the innermost frame for each declared name. -/
theorem mem_scope_iff (hsorted : ∀ f ∈ frames, Dict.Sorted f.scope) :
    (name, value) ∈ (bindings story frames).scope ↔ Declares frames name value := by
  rw [← value?_eq_some]
  have hscope : (name, value) ∈ collect [] frames ↔ name ∉ [] ∧ value? frames name = some value :=
    mem_collect hsorted
  simpa [bindings] using hscope

/-! ## Writing -/

/-- A variable that is declared is written as if it were the only update of a formula. -/
theorem write_eq_commit (h : Declares frames name value) (new : Value) :
    write story frames name new = commit frames [(name, new)] := by
  have hdeclaring : (declaring? frames name).isSome = true := by
    rw [isSome_declaring?, value?_eq_some.2 h, Option.isSome_some]
  rcases Option.isSome_iff_exists.1 hdeclaring with ⟨f, hf⟩
  simp only [write, commit, acceptsAll, accepts, hf]
  cases checkType f name new <;> rfl

/-- A document cannot be written to, and the fault says so. -/
theorem write_of_shows (hfree : Free frames name) (h : Shows story frames name value)
    (new : Value) : write story frames name new = .error (.globalReadonly name) := by
  have hdeclaring : declaring? frames name = none := by
    rw [← Option.not_isSome_iff_eq_none, isSome_declaring?, value?_eq_none.2 hfree]
    simp
  have hdocument : isDocument story frames name = true := by
    rw [isDocument, Dict.contains, get?_documents.2 h, Option.isSome_some]
  simp [write, hdeclaring, unwritable, hdocument]

/-- What a formula is given is what names mean when they are read and written: every name once, as
the innermost variable, or, if there is none, as the document of this name. -/
theorem resolution_agrees (hsorted : ∀ f ∈ frames, Dict.Sorted f.scope)
    (hglobals : Dict.Sorted story.globals) (name : String) :
    (Dict.keys (bindings story frames).all).count name ≤ 1 ∧
    (∀ value, (name, value) ∈ (bindings story frames).scope ↔ Declares frames name value) ∧
    (∀ value, (name, value) ∈ (bindings story frames).documents ↔
      Free frames name ∧ Shows story frames name value) ∧
    (∀ value, read story frames name = .ok value ↔ (name, value) ∈ (bindings story frames).all) ∧
    (name ∈ Dict.keys (bindings story frames).scope →
      ∀ new, write story frames name new = commit frames [(name, new)]) ∧
    (name ∈ Dict.keys (bindings story frames).documents →
      ∀ new, write story frames name new = .error (.globalReadonly name)) := by
  have hscope : ∀ value, (name, value) ∈ (bindings story frames).scope ↔
      Declares frames name value := by
    intro value
    exact mem_scope_iff hsorted
  have hdocuments : ∀ value, (name, value) ∈ (bindings story frames).documents ↔
      Free frames name ∧ Shows story frames name value := by
    intro value
    exact mem_documents_iff hsorted hglobals
  refine ⟨?_, hscope, hdocuments, ?_, ?_, ?_⟩
  · exact List.nodup_iff_count_le_one.1 (nodup_bindings hsorted hglobals) name
  · intro value
    rw [read_eq_ok, Formula.Bindings.all, List.mem_append, hscope, hdocuments]
  · -- A listed name has a value, so it is declared.
    intro h new
    rcases List.mem_map.1 h with ⟨⟨_, value⟩, hmem, rfl⟩
    exact write_eq_commit ((hscope value).1 hmem) new
  · intro h new
    rcases List.mem_map.1 h with ⟨⟨_, value⟩, hmem, rfl⟩
    rcases (hdocuments value).1 hmem with ⟨hfree, hshows⟩
    exact write_of_shows hfree hshows new

/-- Of three documents a script may look into two. -/
def atlasTale : Story where
  scripts := [
    ("helper", { Script.ofGroups "helper" [] [("helper", []), ("helper.loop", [])] with
      visibleGlobals := ["sign", "atlas"] }),
    ("main", .ofGroups "main" [] [("main", [.call "k" "helper" []])])]
  globals := [("atlas", .text "north"), ("ledger", .text "sealed"), ("sign", .text "welcome")]
  version := Story.defaultVersion
  seed := Story.defaultSeed
  host := .none
  evaluator := Formula.interpreter

/-- The script stands in a loop; it and its caller have a variable `x`, and a variable of the caller
has the name of a document. -/
def atlasTale.looping : List Frame := [
  { Player.innerFrame "helper.loop" .whileBody with id := 3 },
  { Player.rootFrame "helper" ⟨[("x", .text "a")], [("x", .string)]⟩ (some ⟨1, 1, []⟩) with id := 2 },
  { Player.rootFrame "main" ⟨[("atlas", .text "mine"), ("x", .text "b")],
      [("atlas", .string), ("x", .string)]⟩ none with id := 1 }]

/-- The variable of the caller stands in front of the document, for formulas as for reading and
writing; the other document is read and not written. -/
theorem resolution_agrees_atlasTale :
    (∀ f ∈ atlasTale.looping, Dict.Sorted f.scope) ∧ Dict.Sorted atlasTale.globals ∧
    Dict.keys (bindings atlasTale atlasTale.looping).all = ["x", "atlas", "sign"] ∧
    Declares atlasTale.looping "x" (.text "a") ∧
    Declares atlasTale.looping "atlas" (.text "mine") ∧
    (∀ new, write atlasTale atlasTale.looping "atlas" new =
      commit atlasTale.looping [("atlas", new)]) ∧
    Free atlasTale.looping "sign" ∧ Shows atlasTale atlasTale.looping "sign" (.text "welcome") ∧
    read atlasTale atlasTale.looping "sign" = .ok (.text "welcome") ∧
    ∀ new, write atlasTale atlasTale.looping "sign" new = .error (.globalReadonly "sign") := by
  have hsorted : ∀ f ∈ atlasTale.looping, Dict.Sorted f.scope := by
    unfold Dict.Sorted
    decide +kernel
  have hglobals : Dict.Sorted atlasTale.globals := by
    unfold Dict.Sorted
    decide +kernel
  have hkeys : Dict.keys (bindings atlasTale atlasTale.looping).all = ["x", "atlas", "sign"] := by
    decide +kernel
  have hscope : (bindings atlasTale atlasTale.looping).scope =
      [("x", .text "a"), ("atlas", .text "mine")] := by rfl
  have hdocuments : (bindings atlasTale atlasTale.looping).documents =
      [("sign", .text "welcome")] := by rfl
  rcases resolution_agrees hsorted hglobals "x" with ⟨-, hx, -⟩
  rcases resolution_agrees hsorted hglobals "atlas" with ⟨-, hatlas, -, -, hwrite, -⟩
  rcases resolution_agrees hsorted hglobals "sign" with ⟨-, -, hsign, hread, -, hrefused⟩
  rcases (hsign (.text "welcome")).1 (by simp [hdocuments]) with ⟨hfree, hshows⟩
  refine ⟨hsorted, hglobals, hkeys, ?_, ?_, ?_, hfree, hshows, ?_, ?_⟩
  · exact (hx (.text "a")).1 (by simp [hscope])
  · exact (hatlas (.text "mine")).1 (by simp [hscope])
  · exact hwrite (by simp [hscope, Dict.keys])
  · exact (hread (.text "welcome")).2 (by simp [Formula.Bindings.all, hdocuments])
  · exact hrefused (by simp [hdocuments, Dict.keys])

end Frames
end StoryPlayer
