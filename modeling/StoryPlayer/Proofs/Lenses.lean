import StoryPlayer.Formula.Interpreter
import StoryPlayer.Proofs.Places

/-!
# Laws of writing to paths

A write to a path gives a value to one place and to no other one.

- `Value.assign_assign` and `Value.lookup_eq_ok` are about values,
- `Frames.writePath_writePath` says that of two writes to a path the second one counts,
- `Frames.ChangesOnly` says that of all variables of a stack only the innermost one of a name has
  another value,
- `writePath_lawful` collects the laws: what is written is read, other places and variables stay, the
  last write counts, and a write that fails does nothing.
-/

namespace StoryPlayer

/-! ## Values -/

namespace Value

variable {old mid new : Value}

/-- A value deeper in a map is replaced by replacing the value that leads to it. -/
theorem assign_deeper {entries : List (String × Value)} {key next : String} {rest : List String}
    {first inner value : Value} (hfirst : Dict.get? entries key = some first)
    (h : first.assign (next :: rest) value = .ok inner) :
    (map entries).assign (key :: next :: rest) value =
      .ok (.map (Dict.insert entries key inner)) := by
  simp [assign, hfirst, h]

/-- Of two values that are put in the same place the second one stays. -/
theorem assign_assign {names : List String} {first second : Value}
    (h : old.assign names first = .ok mid) (h' : mid.assign names second = .ok new) :
    old.assign names second = .ok new := by
  induction names generalizing old mid new with
  | nil => simpa [assign] using h'
  | cons key rest ih =>
      rcases assign_cons h with ⟨entries, inner, rfl, rfl, hinner⟩
      rcases assign_cons h' with ⟨entries', inner', hmid, rfl, hinner'⟩
      cases hmid
      rw [Dict.insert_insert]
      cases rest with
      | nil =>
          rcases hinner' with ⟨-, rfl⟩ | ⟨_, -, hassign⟩
          · rfl
          · cases hassign
            rfl
      | cons next others =>
          rcases hinner with ⟨hnil, -⟩ | ⟨before, hbefore, hassign⟩
          · cases hnil
          · rcases hinner' with ⟨hnil, -⟩ | ⟨after, hafter, hassign'⟩
            · cases hnil
            · -- The second value goes into what the first one has made of the inner value.
              have hsame : inner = after := by simpa [Dict.get?_insert] using hafter
              subst hsame
              exact assign_deeper hbefore (ih hassign hassign')

/-- Names lead to a value exactly if following them through nested maps does. -/
theorem lookup_eq_ok {value found : Value} {names : List String} :
    value.lookup names = .ok found ↔ value.descend? names = some found := by
  induction names generalizing value with
  | nil => simp [lookup, descend?]
  | cons key rest ih =>
      cases value with
      | map entries =>
          cases hget : Dict.get? entries key with
          | none => simp [lookup, descend?, child?, hget]
          | some inner => simp [lookup, descend?, child?, hget, ih]
      | _ => simp [lookup, descend?, child?]

end Value

/-! ## Stacks -/

namespace Frames

variable {story : Story} {fs gs hs : List Frame} {name text : String} {value : Value}

/-- Of two values that are written to a name the later one counts. -/
theorem set_set (name : String) (first second : Value) (fs : List Frame) :
    set name second (set name first fs) = set name second fs := by
  induction fs with
  | nil => rfl
  | cons f below ih =>
      cases hname : Dict.contains f.scope name with
      | true => simp [set, hname, Dict.contains_insert, Dict.insert_insert]
      | false => simp [set, hname, ih]

/-- A variable that is declared is found with the value that it was given. -/
theorem value?_set {old : Value} (h : value? fs name = some old) (new : Value) :
    value? (set name new fs) name = some new := by
  induction fs with
  | nil => cases h
  | cons f below ih =>
      rw [value?_cons] at h
      cases hget : Dict.get? f.scope name with
      | some found => simp [set, Dict.contains, hget, value?_cons, Dict.get?_insert]
      | none =>
          have hbelow : value? below name = some old := by simpa [hget] using h
          simpa [set, Dict.contains, hget, value?_cons] using ih hbelow

/-- Of two writes to a path the second one counts. -/
theorem writePath_writePath {first second : Value} (h : writePath story fs text first = .ok gs)
    (h' : writePath story gs text second = .ok hs) : writePath story fs text second = .ok hs := by
  have hrevalued := revalued_of_writePath h
  rcases writePath_eq_ok.1 h with ⟨path, old, mid, hpath, hold, hassign, -, rfl⟩
  rcases writePath_eq_ok.1 h' with ⟨path', mid', new, hpath', hmid, hassign', haccepts, rfl⟩
  cases hpath.symm.trans hpath'
  rw [value?_set hold] at hmid
  cases hmid
  have hold' := Value.assign_assign hassign hassign'
  refine writePath_eq_ok.2 ⟨path, old, new, hpath, hold, hold', ?_, ?_⟩
  · -- The first write has changed no types, so the variable takes the value from the start.
    rw [← hrevalued.accepts, haccepts]
  · rw [set_set]

/-! ## What a write leaves alone -/

/-- Of all variables only the innermost one of the name may have another value. -/
def ChangesOnly (name : String) (fs gs : List Frame) : Prop :=
  ∃ above f under scope, fs = above ++ f :: under ∧
    (∀ g ∈ above, Dict.contains g.scope name = false) ∧ Dict.contains f.scope name = true ∧
    gs = above ++ { f with scope } :: under ∧
    ∀ other, other ≠ name → Dict.get? scope other = Dict.get? f.scope other

/-- New values of variables do not change which documents are seen. -/
theorem Revalued.documents (h : Revalued fs gs) :
    Frames.documents story gs = Frames.documents story fs := by
  cases h with
  | nil => rfl
  | cons hhead _ => rw [Frames.documents, Frames.documents, hhead.same]

namespace Put

variable {id : UInt64} {path : Path}

/-- A write changes no variable but the one that its path starts from. -/
theorem changesOnly (h : Put id path value fs gs) : ChangesOnly path.root fs gs := by
  cases h with
  | @mk above under f old new habove _ hold _ =>
      refine ⟨above, f, under, _, rfl, habove, ?_, rfl, ?_⟩
      · rw [Dict.contains, hold, Option.isSome_some]
      · intro other hother
        simp [Dict.get?_insert, hother.symm]

/-- Paths that are apart from the one that is written to are read as before, also if they cannot be
read. -/
theorem readPath_apart {other : String} (h : Put id path value fs gs) (hrevalued : Revalued fs gs)
    (hapart : ∀ place, Path.parse other = .ok place → path.Apart place) :
    readPath story gs other = readPath story fs other := by
  cases hplace : Path.parse other with
  | error fault => simp [readPath, hplace, bind, Except.bind]
  | ok place =>
      have hfound := h.found_apart (hapart place hplace).symm
      cases hbefore : value? fs place.root with
      | none =>
          -- The path leads into a document, if anywhere.
          have hafter : value? gs place.root = none := by simpa [hbefore] using hfound
          simp only [readPath, hplace, read, hbefore, hafter, hrevalued.documents, bind, Except.bind]
      | some old =>
          obtain ⟨new, hafter, hlookup⟩ :
              ∃ new, value? gs place.root = some new ∧
                new.lookup place.rest = old.lookup place.rest := by
            simpa [hbefore] using hfound
          simp [readPath, hplace, read, hbefore, hafter, hlookup, bind, Except.bind]

end Put

/-- Writing to a path is lawful.  A write that fails changes nothing.  After one that succeeds the
path leads to what was written, paths that are apart lead where they have led, only the variable of
the path is another one, and an earlier write to the path makes no difference.  Where names lead
inside of a value is where nested maps are descended to. -/
theorem writePath_lawful (story : Story) (fs : List Frame) (text : String) (value : Value) :
    (∀ fault, writePath story fs text value = .error fault →
      ∀ scope name rest, Dict.get? scope name = some value →
        writeBack story scope ((name, text) :: rest) fs = (.error fault, fs)) ∧
    (∀ gs, writePath story fs text value = .ok gs →
      readPath story gs text = .ok value ∧
      (∀ other, (∀ path place, Path.parse text = .ok path → Path.parse other = .ok place →
          path.Apart place) →
        readPath story gs other = readPath story fs other) ∧
      (∃ path, Path.parse text = .ok path ∧ ChangesOnly path.root fs gs) ∧
      ∀ hs earlier, writePath story hs text earlier = .ok fs →
        writePath story hs text value = .ok gs) ∧
    ∀ (root found : Value) (names : List String),
      root.lookup names = .ok found ↔ root.descend? names = some found := by
  refine ⟨?_, ?_, ?_⟩
  · intro fault h scope name rest hvalue
    simp [writeBack, hvalue, h]
  · intro gs h
    -- All that a write does is to put the value in one place.
    rcases put_of_writePath h with ⟨path, id, hpath, -, hput⟩
    refine ⟨readPath_of_holds hpath hput.holds, ?_, ⟨path, hpath, hput.changesOnly⟩, ?_⟩
    · intro other hapart
      refine hput.readPath_apart (revalued_of_writePath h) ?_
      intro place hplace
      exact hapart path place hpath hplace
    · intro hs earlier hearlier
      exact writePath_writePath hearlier h
  · intro root found names
    exact Value.lookup_eq_ok

def campTale : Story where
  scripts := []
  globals := []
  version := Story.defaultVersion
  seed := Story.defaultSeed
  host := .none
  evaluator := Formula.interpreter

/-- A script has a hero with a bag; its caller has a variable of the same name. -/
def campTale.packed (bag : Dict Value) : List Frame := [
  { Player.rootFrame "helper" ⟨[("hero", .map [("bag", .map bag), ("name", .text "Rin")])],
      [("hero", .object "Hero" [("bag", .map .string), ("name", .string)])]⟩ (some ⟨1, 1, []⟩) with
    id := 2 },
  { Player.rootFrame "main" ⟨[("hero", .text "nobody")], [("hero", .string)]⟩ none with id := 1 }]

/-- A lamp is put into the bag, which takes up the new name, and then it is replaced.  The rope stays
where it is.  Nothing is put into a pack that is not there, and no list in the place of the name. -/
theorem writePath_lawful_campTale :
    let lamp := "hero . bag.lamp"
    let before := campTale.packed [("rope", .text "long")]
    let between := campTale.packed [("lamp", .text "lit"), ("rope", .text "long")]
    let after := campTale.packed [("lamp", .text "dim"), ("rope", .text "long")]
    writePath campTale before lamp (.text "lit") = .ok between ∧
    writePath campTale between lamp (.text "dim") = .ok after ∧
    writePath campTale before lamp (.text "dim") = .ok after ∧
    readPath campTale after lamp = .ok (.text "dim") ∧
    readPath campTale after "hero.bag.rope" = readPath campTale between "hero.bag.rope" ∧
    ChangesOnly "hero" between after ∧
    writeBack campTale [("p", .text "oil")] [("p", "hero.pack.lamp")] before =
      (.error (.pathUnwritable "hero.pack.lamp" "missing key \"pack\""), before) ∧
    writeBack campTale [("p", .list [])] [("p", "hero.name")] before =
      (.error (.variableType "hero" "Hero" "map"), before) := by
  intro lamp before between after
  have hlamp : Path.parse lamp = .ok ⟨"hero", ["bag", "lamp"]⟩ := by decide +kernel
  have hrope : Path.parse "hero.bag.rope" = .ok ⟨"hero", ["bag", "rope"]⟩ := by decide +kernel
  have hpack : Path.parse "hero.pack.lamp" = .ok ⟨"hero", ["pack", "lamp"]⟩ := by decide +kernel
  have hname : Path.parse "hero.name" = .ok ⟨"hero", ["name"]⟩ := by decide +kernel
  have hlit : writePath campTale before lamp (.text "lit") = .ok between :=
    writePath_eq_ok.2 ⟨_, _, _, hlamp, rfl, rfl, rfl, rfl⟩
  have hdim : writePath campTale between lamp (.text "dim") = .ok after :=
    writePath_eq_ok.2 ⟨_, _, _, hlamp, rfl, rfl, rfl, rfl⟩
  have hmissing : writePath campTale before "hero.pack.lamp" (.text "oil") =
      .error (.pathUnwritable "hero.pack.lamp" "missing key \"pack\"") := by
    rw [writePath, hpack]
    rfl
  have hmisfit : writePath campTale before "hero.name" (.list []) =
      .error (.variableType "hero" "Hero" "map") := by
    rw [writePath, hname]
    rfl
  rcases (writePath_lawful campTale between lamp (.text "dim")).2.1 after hdim with
    ⟨hread, hapart, ⟨path, hpath, hchanges⟩, htwice⟩
  cases hlamp.symm.trans hpath
  refine ⟨hlit, hdim, htwice _ _ hlit, hread, hapart _ fun path place hpath hplace => ?_, hchanges,
    ?_, ?_⟩
  · cases hlamp.symm.trans hpath
    cases hrope.symm.trans hplace
    simp [Path.Apart, Path.names]
  · exact (writePath_lawful campTale before _ _).1 _ hmissing _ _ _ rfl
  · exact (writePath_lawful campTale before _ _).1 _ hmisfit _ _ _ rfl

end Frames
end StoryPlayer
