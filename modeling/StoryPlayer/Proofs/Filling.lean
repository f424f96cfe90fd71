import StoryPlayer.Player.Rendering
import StoryPlayer.Proofs.Effect

/-!
# Templates that are filled

A text is cut into holes and what stands between them in one way only, and the holes are filled one
after the other.

- `Template.IsSource` and `Template.Plain` say what can stand in a hole and what has no hole in it,
- `Template.Splits` says that a template is a text that is cut in this way; `splits_iff` shows that
  `Template.parse` is the only way to do so,
- `Act.InTurn` are expressions that are computed one after the other,
- `render_by_holes` concludes what a text is rendered to.
-/

namespace StoryPlayer
namespace Template

/-! ## Holes -/

/-- The characters can stand in a hole. -/
def IsSource (source : List Char) : Prop :=
  source ≠ [] ∧ openBrace ∉ source ∧ closeBrace ∉ source

def hollow (source : List Char) : List Char :=
  '$' :: openBrace :: (source ++ [closeBrace])

def Plain (cs : List Char) : Prop :=
  ∀ source, IsSource source → ¬ hollow source <:+: cs

variable {cs lead source after tail : List Char} {holes : List (List Char × List Char)}

/-- A source is not empty and has no character that ends a hole or starts another one. -/
theorem isSource_iff : IsSource source ↔ source ≠ [] ∧ ∀ c ∈ source, isInner c = true := by
  have hinner : (∀ c ∈ source, isInner c = true) ↔ openBrace ∉ source ∧ closeBrace ∉ source := by
    constructor
    · intro h
      exact ⟨fun hopen => by simpa [isInner] using h _ hopen,
        fun hclose => by simpa [isInner] using h _ hclose⟩
    · rintro ⟨hopen, hclose⟩ c hc
      have hne : c ≠ openBrace ∧ c ≠ closeBrace :=
        ⟨fun h => hopen (h ▸ hc), fun h => hclose (h ▸ hc)⟩
      simpa [isInner] using hne
  rw [IsSource, hinner]

/-- The hole that characters start with is found, and there is only one. -/
theorem hole?_eq_some : hole? cs = some (source, after) ↔
    IsSource source ∧ cs = hollow source ++ after := by
  rw [isSource_iff]
  constructor
  · intro h
    unfold hole? at h
    split at h
    · next c rest =>
      split at h
      · next last others hothers =>
        simp only [Option.ite_none_right_eq_some, Bool.and_eq_true, beq_iff_eq,
          Bool.not_eq_true', List.isEmpty_eq_false_iff, Option.some.injEq, Prod.mk.injEq] at h
        rcases h with ⟨⟨⟨rfl, rfl⟩, hne⟩, rfl, rfl⟩
        refine ⟨⟨hne, List.all_eq_true.1 List.all_takeWhile⟩, ?_⟩
        have hrest := List.takeWhile_append_dropWhile (p := isInner) (l := rest)
        rw [hothers] at hrest
        simp [hollow, hrest]
      · cases h
    · cases h
  · rintro ⟨⟨hne, hinner⟩, rfl⟩
    -- A source has no closing brace, so the first one ends the hole.
    have hclose : ¬ isInner closeBrace = true := by decide
    have htake : (source ++ closeBrace :: after).takeWhile isInner = source := by
      rw [List.takeWhile_append_of_pos hinner, List.takeWhile_cons_of_neg hclose, List.append_nil]
    have hdrop : (source ++ closeBrace :: after).dropWhile isInner = closeBrace :: after := by
      rw [List.dropWhile_append_of_pos hinner, List.dropWhile_cons_of_neg hclose]
    simp [hollow, hole?, htake, hdrop, hne]

/-- A hole that starts further on starts behind the first hole. -/
theorem hollow_leads (hsource : IsSource source) (hlead : lead ≠ [])
    (h : lead ++ '$' :: openBrace :: tail = hollow source ++ after) : hollow source <+: lead := by
  obtain ⟨others, rfl⟩ : ∃ others, lead = '$' :: openBrace :: others := by
    rcases lead with _ | ⟨first, _ | ⟨second, others⟩⟩
    · exact absurd rfl hlead
    · simp [hollow, openBrace] at h
    · rcases List.cons.inj h with ⟨rfl, hrest⟩
      rcases List.cons.inj hrest with ⟨rfl, -⟩
      exact ⟨others, rfl⟩
  have hothers : others ++ '$' :: openBrace :: tail = source ++ closeBrace :: after := by
    simpa [hollow] using h
  rcases List.append_eq_append_iff.1 hothers with ⟨inside, rfl, hrest⟩ | ⟨behind, rfl, hrest⟩
  · -- The other hole would start inside the source, or with the brace that closes the first one.
    exfalso
    rcases inside with _ | ⟨first, _ | ⟨second, inside⟩⟩
    · simp [closeBrace] at hrest
    · simp [openBrace, closeBrace] at hrest
    · have hsecond : second = openBrace := by
        simp only [List.cons_append, List.cons.injEq] at hrest
        exact hrest.2.1.symm
      exact hsource.2.1 (by simp [hsecond])
  · rcases behind with _ | ⟨first, behind⟩
    · simp [closeBrace] at hrest
    · rcases List.cons.inj hrest with ⟨rfl, -⟩
      exact ⟨behind, by simp [hollow]⟩

/-- What follows a hole is shorter. -/
theorem length_after {c : Char} {fuel : Nat} (h : hole? (c :: cs) = some (source, after))
    (hfuel : (c :: cs).length ≤ fuel + 1) : after.length ≤ fuel := by
  have hlength := congrArg List.length (hole?_eq_some.1 h).2
  simp only [hollow, List.length_cons, List.length_append] at hlength hfuel
  omega

/-! ## Cutting -/

def spell (holes : List (List Char × List Char)) : List Char :=
  holes.flatMap fun hole => hollow hole.1 ++ hole.2

@[simp] theorem spell_nil : spell [] = [] :=
  rfl

@[simp] theorem spell_cons (hole : List Char × List Char) (others : List (List Char × List Char)) :
    spell (hole :: others) = hollow hole.1 ++ (hole.2 ++ spell others) := by
  simp [spell]

/-- Characters are cut at all their holes. -/
structure CutAs (cs lead : List Char) (holes : List (List Char × List Char)) : Prop where
  spelled : lead ++ spell holes = cs
  lead : Plain lead
  holes : ∀ hole ∈ holes, IsSource hole.1 ∧ Plain hole.2

theorem plain_nil : Plain [] := by
  intro source _ h
  simp [hollow] at h

theorem cutAs_nil : CutAs [] [] [] :=
  ⟨rfl, plain_nil, by simp⟩

/-- If characters are cut, a hole that they start with is the first one. -/
theorem CutAs.first (h : CutAs cs lead holes) (hhole : hole? cs = some (source, after)) :
    ∃ text others, lead = [] ∧ holes = (source, text) :: others ∧ CutAs after text others := by
  rcases hole?_eq_some.1 hhole with ⟨hsource, hcs⟩
  have hspelled := h.spelled.trans hcs
  -- A lead in front of the hole would have the hole in it.
  have hlead : lead = [] := by
    by_contra hne
    refine h.lead source hsource ?_
    cases holes with
    | nil =>
        rw [spell_nil, List.append_nil] at hspelled
        exact ⟨[], after, by simp [hspelled]⟩
    | cons hole others =>
        rw [spell_cons] at hspelled
        exact (hollow_leads hsource hne hspelled).isInfix
  subst hlead
  cases holes with
  | nil => simp [hollow] at hspelled
  | cons hole others =>
      rcases hole with ⟨inner, text⟩
      rcases List.forall_mem_cons.1 h.holes with ⟨⟨hinner, htext⟩, hothers⟩
      have hcs' : hollow inner ++ (text ++ spell others) = cs := by simpa using h.spelled
      have hfound := hole?_eq_some.2 ⟨hinner, hcs'.symm⟩
      rw [hhole] at hfound
      cases hfound
      exact ⟨text, others, rfl, rfl, rfl, htext, hothers⟩

/-- If characters are cut that do not start with a hole, the first of them stands for itself. -/
theorem CutAs.skip {c : Char} (h : CutAs (c :: cs) lead holes) (hhole : hole? (c :: cs) = none) :
    ∃ others, lead = c :: others ∧ CutAs cs others holes := by
  cases lead with
  | nil =>
      exfalso
      cases holes with
      | nil => simpa using h.spelled
      | cons hole others =>
          have hinner := (h.holes hole List.mem_cons_self).1
          have hfound := hole?_eq_some.2 ⟨hinner, by simpa using h.spelled.symm⟩
          rw [hhole] at hfound
          cases hfound
  | cons first others =>
      rcases List.cons.inj h.spelled with ⟨rfl, hspelled⟩
      have hothers : Plain others := by
        intro source hsource hfound
        exact h.lead source hsource (hfound.trans (List.suffix_cons first others).isInfix)
      exact ⟨others, rfl, hspelled, hothers, h.holes⟩

/-- Only the template without holes is cut from nothing. -/
theorem CutAs.cut_nil (h : CutAs [] lead holes) (fuel : Nat) : cut fuel [] = (lead, holes) := by
  have hspelled := List.append_eq_nil_iff.1 h.spelled
  have hholes : holes = [] := by
    cases holes with
    | nil => rfl
    | cons hole others => simp [hollow] at hspelled
  rw [hspelled.1, hholes]
  cases fuel <;> rfl

/-- There is no more than one way to cut characters. -/
theorem CutAs.cut_eq {fuel : Nat} (h : CutAs cs lead holes) (hfuel : cs.length ≤ fuel) :
    cut fuel cs = (lead, holes) := by
  -- By induction on the steps of the cut; each decides whether a hole starts here.
  induction fuel generalizing cs lead holes with
  | zero =>
      rcases List.length_eq_zero_iff.1 (Nat.le_zero.1 hfuel) with rfl
      exact h.cut_nil 0
  | succ fuel ih =>
      cases cs with
      | nil => exact h.cut_nil (fuel + 1)
      | cons c rest =>
          cases hhole : hole? (c :: rest) with
          | some found =>
              rcases found with ⟨source, after⟩
              rcases h.first hhole with ⟨text, others, rfl, rfl, hafter⟩
              simp [cut, hhole, ih hafter (length_after hhole hfuel)]
          | none =>
              rcases h.skip hhole with ⟨others, rfl, hrest⟩
              simp [cut, hhole, ih hrest (Nat.le_of_succ_le_succ hfuel)]

/-- Characters are cut by going through them from left to right. -/
theorem cutAs_cut {fuel : Nat} (hfuel : cs.length ≤ fuel) :
    CutAs cs (cut fuel cs).1 (cut fuel cs).2 := by
  induction fuel generalizing cs with
  | zero =>
      rcases List.length_eq_zero_iff.1 (Nat.le_zero.1 hfuel) with rfl
      exact cutAs_nil
  | succ fuel ih =>
      cases cs with
      | nil => exact cutAs_nil
      | cons c rest =>
          -- Either a hole starts here, or this character stands for itself.
          cases hhole : hole? (c :: rest) with
          | some found =>
              rcases found with ⟨source, after⟩
              rcases hole?_eq_some.1 hhole with ⟨hsource, hcs⟩
              have hafter := ih (length_after hhole hfuel)
              simp only [cut, hhole]
              exact {
                spelled := by simp [hcs, hafter.spelled]
                lead := plain_nil
                holes := List.forall_mem_cons.2 ⟨⟨hsource, hafter.lead⟩, hafter.holes⟩ }
          | none =>
              have hrest := ih (Nat.le_of_succ_le_succ hfuel)
              simp only [cut, hhole]
              refine ⟨by simp [hrest.spelled], ?_, hrest.holes⟩
              intro source hsource hfound
              rcases List.infix_cons_iff.1 hfound with hstart | hinside
              · -- A hole at the start of what stands for itself would have been found.
                rcases hstart with ⟨behind, hbehind⟩
                have hcs : c :: rest = hollow source ++ (behind ++ spell (cut fuel rest).2) := by
                  rw [← List.append_assoc, hbehind, List.cons_append, hrest.spelled]
                rw [hole?_eq_some.2 ⟨hsource, hcs⟩] at hhole
                cases hhole
              · exact hrest.lead source hsource hinside

/-! ## Templates -/

/-- The template is a text that is cut at all its holes. -/
structure Splits (t : Template) (s : String) : Prop where
  source : t.source = s
  lead : Plain t.lead.toList
  holes : ∀ hole ∈ t.holes, IsSource hole.1.toList ∧ Plain hole.2.toList

/-- The characters of a template are its beginning and its holes, each with what follows it. -/
theorem toList_source (t : Template) : t.source.toList = t.lead.toList ++
    spell (t.holes.map fun hole => (hole.1.toList, hole.2.toList)) := by
  have hholes : (String.join (t.holes.map holeText)).toList =
      spell (t.holes.map fun hole => (hole.1.toList, hole.2.toList)) := by
    induction t.holes with
    | nil => rfl
    | cons hole others ih => simp [String.join_cons, ih, holeText, hollow, openBrace, closeBrace]
  rw [source, String.toList_append, hholes]

/-- Cutting texts is cutting their characters. -/
theorem splits_iff_cutAs {t : Template} {s : String} : t.Splits s ↔
    CutAs s.toList t.lead.toList (t.holes.map fun hole => (hole.1.toList, hole.2.toList)) := by
  constructor
  · rintro ⟨rfl, hlead, hholes⟩
    exact ⟨(toList_source t).symm, hlead, List.forall_mem_map.2 hholes⟩
  · rintro ⟨hspelled, hlead, hholes⟩
    exact ⟨String.toList_inj.1 ((toList_source t).trans hspelled), hlead,
      List.forall_mem_map.1 hholes⟩

/-- A text is split by its template and by no other. -/
theorem splits_iff {t : Template} {s : String} : t.Splits s ↔ t = parse s := by
  have hlength : s.toList.length ≤ s.length := by rw [String.length_toList]
  rw [splits_iff_cutAs]
  constructor
  · intro h
    rw [parse, h.cut_eq hlength]
    simp [Function.comp_def]
  · rintro rfl
    simpa [parse, Function.comp_def] using cutAs_cut hlength

-- Marks that are not closed, are empty or hold a brace stand for themselves, also next to holes.
example : parse "$$\x7bx\x7d$\x7ba$\x7bb\x7d-$\x7b\x7d" =
    ⟨"$", [("x", "$\x7ba"), ("b", "-$\x7b\x7d")]⟩ := by
  decide +kernel

def sources (t : Template) : List String :=
  t.holes.map Prod.fst

/-- The text of the template with values in the holes. -/
def filled (t : Template) (values : List Value) : String :=
  t.lead ++ String.join (List.zipWith (fun hole value => value.display ++ hole.2) t.holes values)

end Template

/-! ## Rendering -/

namespace Act

/-- The expressions have the values one after the other, each in the state that the one before has
left. -/
inductive InTurn (story : Story) : List String → Player → List Value → Player → Prop
  | nil {p : Player} : InTurn story [] p [] p
  | cons {source : String} {rest : List String} {p r q : Player} {value : Value}
      {values : List Value} :
      evaluate story source p = .ok (value, r) → InTurn story rest r values q →
      InTurn story (source :: rest) p (value :: values) q

variable {story : Story} {holes : List (String × String)} {p q : Player} {out : String}
  {failure : Failure}

/-- Holes are filled exactly if their expressions have values in turn; the text is put together from
these. -/
theorem renderHoles_eq_ok : renderHoles story holes p = .ok (out, q) ↔
    ∃ values, InTurn story (holes.map Prod.fst) p values q ∧
      out = String.join (List.zipWith (fun hole value => value.display ++ hole.2) holes values) := by
  induction holes generalizing p out with
  | nil =>
      rw [renderHoles, pure_eq_ok]
      constructor
      · rintro ⟨rfl, rfl⟩
        exact ⟨[], .nil, rfl⟩
      · rintro ⟨_, hturn, rfl⟩
        cases hturn
        exact ⟨rfl, rfl⟩
  | cons hole others ih =>
      rcases hole with ⟨source, text⟩
      rw [renderHoles, bind_eq_ok]
      constructor
      · rintro ⟨value, r, hvalue, hrest⟩
        rcases bind_eq_ok.1 hrest with ⟨rendered, s, hothers, hreturn⟩
        rcases pure_eq_ok.1 hreturn with ⟨rfl, rfl⟩
        rcases ih.1 hothers with ⟨values, hturn, rfl⟩
        exact ⟨value :: values, .cons hvalue hturn, by simp [String.join_cons]⟩
      · rintro ⟨_, hturn, rfl⟩
        cases hturn with
        | @cons _ _ _ r _ value values hvalue hturn =>
            refine ⟨value, r, hvalue, bind_eq_ok.2 ⟨_, q, ih.2 ⟨values, hturn, rfl⟩, ?_⟩⟩
            exact pure_eq_ok.2 ⟨by simp [String.join_cons], rfl⟩

/-- Filling holes fails exactly if one expression fails after those before it had values. -/
theorem renderHoles_eq_error : renderHoles story holes p = .error failure ↔
    ∃ before source after values q, holes.map Prod.fst = before ++ source :: after ∧
      InTurn story before p values q ∧ evaluate story source q = .error failure := by
  induction holes generalizing p with
  | nil =>
      constructor
      · intro h
        cases h
      · rintro ⟨before, source, after, _, _, hsources, -⟩
        cases before <;> cases hsources
  | cons hole others ih =>
      rcases hole with ⟨first, text⟩
      rw [renderHoles, bind_eq_error]
      constructor
      · -- The first hole fails, or it is filled and a later one fails.
        rintro (hfirst | ⟨value, r, hvalue, hrest⟩)
        · exact ⟨[], first, others.map Prod.fst, [], p, rfl, .nil, hfirst⟩
        · rcases bind_eq_error.1 hrest with hothers | ⟨_, _, -, hreturn⟩
          · rcases ih.1 hothers with ⟨before, source, after, values, q, hsources, hturn, hfails⟩
            exact ⟨first :: before, source, after, value :: values, q, by simp [hsources],
              .cons hvalue hturn, hfails⟩
          · cases hreturn
      · rintro ⟨before, source, after, values, q, hsources, hturn, hfails⟩
        cases hturn with
        | nil =>
            rcases List.cons.inj hsources with ⟨rfl, -⟩
            exact Or.inl hfails
        | @cons _ before _ r _ value values hvalue hturn =>
            rcases List.cons.inj hsources with ⟨rfl, hrest⟩
            refine Or.inr ⟨value, r, hvalue, bind_eq_error.2 (Or.inl ?_)⟩
            exact ih.2 ⟨before, source, after, values, q, hrest, hturn, hfails⟩

/-- A text is rendered by cutting it at its holes, which is possible in one way only, and computing
the expressions in them from left to right, each of them once.  The outcome is the text with the
values as they are displayed in the place of the holes, or the first failure. -/
theorem render_by_holes (s : String) : ∃ t : Template,
    t.Splits s ∧ (∀ other : Template, other.Splits s → other = t) ∧ ∀ story p,
      (∀ out q, render story s p = .ok (out, q) ↔
        ∃ values, InTurn story t.sources p values q ∧ out = t.filled values) ∧
      ∀ failure, render story s p = .error failure ↔
        ∃ before source after values q, t.sources = before ++ source :: after ∧
          InTurn story before p values q ∧ evaluate story source q = .error failure := by
  refine ⟨Template.parse s, Template.splits_iff.2 rfl, ?_, ?_⟩
  · intro other h
    exact Template.splits_iff.1 h
  intro story p
  refine ⟨?_, ?_⟩
  · intro out q
    rw [render, bind_eq_ok]
    constructor
    · rintro ⟨others, r, hothers, hreturn⟩
      rcases pure_eq_ok.1 hreturn with ⟨rfl, rfl⟩
      rcases renderHoles_eq_ok.1 hothers with ⟨values, hturn, rfl⟩
      exact ⟨values, hturn, rfl⟩
    · rintro ⟨values, hturn, rfl⟩
      exact ⟨_, q, renderHoles_eq_ok.2 ⟨values, hturn, rfl⟩, rfl⟩
  · intro failure
    rw [render, bind_eq_error]
    constructor
    · rintro (hothers | ⟨_, _, -, hreturn⟩)
      · exact renderHoles_eq_error.1 hothers
      · -- What is put together in the end cannot fail any more.
        cases hreturn
    · intro h
      exact Or.inl (renderHoles_eq_error.2 h)

end Act
end StoryPlayer
