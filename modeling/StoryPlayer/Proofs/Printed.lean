import Mathlib.Tactic.SplitIfs
import StoryPlayer.Proofs.Numerals

/-!
# Documents that are printed and read again

Every document that is printed is read again.  What may be different are its numbers.

- `Json.reread` is the document that is read from the text of another one, and `returns` reads it,
  whatever stands behind the text,
- `ReadsBack` says that a double is read back from its decimal digits,
- `Faithful` holds of the documents that can be printed without loss; such a document is reread as
  itself,
- `parse_print` reads it back from its text, if it is not nested too deep.
-/

namespace StoryPlayer
namespace Json

/-! ## Texts -/

def spell (cs : List Char) : List Char :=
  cs.flatMap fun c => (printChar c).toList

theorem toList_printText (s : String) :
    (printText s).toList = Text.doubleQuote :: (spell s.toList ++ [Text.doubleQuote]) := by
  have hquote : "\"".toList = [Text.doubleQuote] := rfl
  simp [printText, spell, String.toList_join, List.flatMap_map, hquote]

/-- The digits of a control character are read back. -/
theorem hexNumber?_twoHexDigits :
    ∀ n < 32, hexNumber? ['0', '0', Nat.digitChar (n / 16), Nat.digitChar (n % 16)] = some n := by
  decide

/-- A character stands for itself, or is written with a backslash and read back from that. -/
theorem printChar_cases (c : Char) :
    ((printChar c).toList = [c] ∧ c ≠ Text.doubleQuote ∧ c ≠ Text.backslash ∧ ¬ c.toNat < 0x20) ∨
      ∃ escape, (printChar c).toList = Text.backslash :: escape ∧
        ∀ rest, readEscape (escape ++ rest) = some (.char c, rest) := by
  have hcode : ∀ n, c.toNat = n → c = Char.ofNat n := by
    intro n hn
    rw [← hn, Char.ofNat_toNat]
  unfold printChar
  split_ifs with hmark hline hreturn htab hback hform hlow
  · right
    refine ⟨[c], by simp [Text.backslash], fun rest => ?_⟩
    rcases Bool.or_eq_true_iff.1 hmark with h | h
    · obtain rfl : c = Text.doubleQuote := by simpa using h
      rfl
    · obtain rfl : c = Text.backslash := by simpa using h
      rfl
  · obtain rfl : c = '\n' := by simpa using hline
    exact Or.inr ⟨['n'], rfl, fun rest => rfl⟩
  · obtain rfl : c = '\r' := by simpa using hreturn
    exact Or.inr ⟨['r'], rfl, fun rest => rfl⟩
  · obtain rfl : c = '\t' := by simpa using htab
    exact Or.inr ⟨['t'], rfl, fun rest => rfl⟩
  · obtain rfl := hcode 8 (by simpa using hback)
    exact Or.inr ⟨['b'], rfl, fun rest => rfl⟩
  · obtain rfl := hcode 12 (by simpa using hform)
    exact Or.inr ⟨['f'], rfl, fun rest => rfl⟩
  · -- The code of any other control character is written with two hexadecimal digits.
    right
    refine ⟨['u', '0', '0', Nat.digitChar (c.toNat / 16), Nat.digitChar (c.toNat % 16)],
      by simp [twoHexDigits, Text.backslash], fun rest => ?_⟩
    have hhex := hexNumber?_twoHexDigits c.toNat hlow
    have hunit : TextUnit.ofCode c.toNat = .char c := by
      have hhigh : isHighSurrogate c.toNat = false := by
        simp only [isHighSurrogate, Bool.and_eq_false_iff, decide_eq_false_iff_not]
        omega
      have hlower : isLowSurrogate c.toNat = false := by
        simp only [isLowSurrogate, Bool.and_eq_false_iff, decide_eq_false_iff_not]
        omega
      simp [TextUnit.ofCode, hhigh, hlower]
    simp [readEscape, hhex, hunit]
  · left
    simp only [Bool.or_eq_true, beq_iff_eq, not_or] at hmark
    exact ⟨by simp, hmark.1, hmark.2, hlow⟩

/-- However a character is written, it is read as itself. -/
theorem readText_printChar (fuel : Nat) (acc : List TextUnit) (c : Char) (rest : List Char) :
    readText (fuel + 1) acc ((printChar c).toList ++ rest) =
      readText fuel (.char c :: acc) rest := by
  rcases printChar_cases c with ⟨hself, hquote, hslash, hlow⟩ | ⟨escape, hescape, hread⟩
  · simp [hself, readText, hquote, hslash, hlow]
  · have hmark : (Text.backslash == Text.doubleQuote) = false := rfl
    simp [hescape, readText, hmark, hread]

/-- The characters of a text are read back up to the closing quote. -/
theorem readText_spell {fuel : Nat} (acc : List TextUnit) (cs rest : List Char)
    (h : cs.length < fuel) :
    readText fuel acc (spell cs ++ Text.doubleQuote :: rest) =
      some (acc.reverse ++ cs.map .char, rest) := by
  induction cs generalizing fuel acc with
  | nil =>
      cases fuel with
      | zero => cases h
      | succ fuel => simp [spell, readText]
  | cons c cs ih =>
      cases fuel with
      | zero => cases h
      | succ fuel =>
          have hrest := ih (.char c :: acc) (Nat.lt_of_succ_lt_succ h)
          simp only [spell, List.flatMap_cons, List.append_assoc] at hrest ⊢
          rw [readText_printChar, hrest]
          simp

/-- A text is written with at least one character for each of its own. -/
theorem length_le_spell (cs : List Char) : cs.length ≤ (spell cs).length := by
  induction cs with
  | nil => simp [spell]
  | cons c cs ih =>
      have hc : 1 ≤ (printChar c).toList.length := by
        rcases printChar_cases c with ⟨hself, -⟩ | ⟨escape, hescape, -⟩
        · simp [hself]
        · simp [hescape]
      simp only [spell, List.flatMap_cons, List.length_append, List.length_cons] at ih ⊢
      omega

/-- Characters that are no halves of pairs are joined as they are. -/
theorem join_chars (cs : List Char) : TextUnit.join (cs.map .char) = some cs := by
  induction cs with
  | nil => rfl
  | cons c cs ih => simp [TextUnit.join, ih]

/-- A text is read back behind its opening quote. -/
theorem readQuoted_spell (s : String) (rest : List Char) :
    readQuoted (spell s.toList ++ Text.doubleQuote :: rest) = some (some s, rest) := by
  have hfuel : s.toList.length < (spell s.toList ++ Text.doubleQuote :: rest).length + 1 := by
    have hlength := length_le_spell s.toList
    simp only [List.length_append]
    omega
  unfold readQuoted
  rw [readText_spell [] s.toList rest hfuel]
  simp [join_chars]

/-! ## Values -/

mutual

/-- The document that is read from the text of a document. -/
def reread : Json → Json
  | .number n => n.reread
  | .list items => .list (rereadItems items)
  | .object members => .object (rereadMembers members)
  | other => other

def rereadItems : List Json → List Json
  | [] => []
  | item :: rest => reread item :: rereadItems rest

def rereadMembers : List (String × Json) → List (String × Json)
  | [] => []
  | (name, value) :: rest => (name, reread value) :: rereadMembers rest

end

theorem rereadItems_eq (items : List Json) : rereadItems items = items.map reread := by
  induction items with
  | nil => rfl
  | cons item rest ih => simp [rereadItems, ih]

theorem rereadMembers_eq (members : List (String × Json)) :
    rereadMembers members = members.map fun member => (member.1, reread member.2) := by
  induction members with
  | nil => rfl
  | cons member rest ih => simp [rereadMembers, ih]

/-- The double is read back from its decimal digits. -/
def ReadsBack (x : Float) : Prop :=
  readNumber (printFloat x).toList = some (.number (.real x), [])

/-- The document can be printed without loss: every whole number is small enough, and every double is
read back. -/
inductive Faithful : Json → Prop
  | null : Faithful .null
  | bool (b : Bool) : Faithful (.bool b)
  | natural {n : Nat} : n ≤ maxSignificand → Faithful (.number (.natural n))
  | real {x : Float} : ReadsBack x → Faithful (.number (.real x))
  | text (s : String) : Faithful (.text s)
  | list {items : List Json} : (∀ item ∈ items, Faithful item) → Faithful (.list items)
  | object {members : List (String × Json)} :
      (∀ member ∈ members, Faithful member.2) → Faithful (.object members)

/-- The document is read again from its text, whatever stands behind it. -/
structure Returns (j : Json) : Prop where
  /-- The text starts neither with a blank nor like the end of a list. -/
  opens : ∃ c cs, (print j).toList = c :: cs ∧ isSpace c = false ∧ c ≠ ']'
  reads : ∀ fuel rest, 2 * (print j).toList.length < fuel → Stops rest →
    readValue fuel ((print j).toList ++ rest) = some (j.reread, rest)

/-- A value that starts with a sign or a digit is not taken for anything else. -/
theorem number_opens {c : Char} (h : c = '-' ∨ c.isDigit = true) :
    isSpace c = false ∧ c ≠ ']' ∧
      ∀ fuel cs, readValue (fuel + 1) (c :: cs) = readNumber (c :: cs) := by
  -- The first character of a number is a sign or a digit, and nothing else opens with one.
  have hother : ∀ d : Char, d ≠ '-' → d.isDigit = false → c ≠ d := by
    rintro d hsign hdigit rfl
    rcases h with h | h
    · exact hsign h
    · rw [hdigit] at h
      cases h
  have hspace : isSpace c = false := by
    simp [isSpace, hother ' ' (by decide) rfl, hother '\n' (by decide) rfl,
      hother '\t' (by decide) rfl, hother '\r' (by decide) rfl]
  refine ⟨hspace, hother ']' (by decide) rfl, fun fuel cs => ?_⟩
  have hskip : skipSpace (c :: cs) = c :: cs := by simp [skipSpace, hspace]
  have hquote : c ≠ Text.doubleQuote := hother _ (by decide) rfl
  unfold readValue
  rw [hskip]
  split
  · next heq => exact absurd (List.cons.inj heq).1 (hother _ (by decide) rfl)
  · next heq => exact absurd (List.cons.inj heq).1 (hother _ (by decide) rfl)
  · next heq => exact absurd (List.cons.inj heq).1 (hother _ (by decide) rfl)
  · next heq => exact absurd (List.cons.inj heq).1 (hother _ (by decide) rfl)
  · next heq => exact absurd (List.cons.inj heq).1 (hother _ (by decide) rfl)
  · next heq =>
    cases heq
    simp [hquote]
  · next heq => cases heq

/-- A text that is a number is read as one. -/
theorem returns_numeral {j : Json}
    (h : readNumber (print j).toList = some (j.reread, [])) : Returns j := by
  cases hchars : (print j).toList with
  | nil =>
      rw [hchars] at h
      cases h
  | cons c cs =>
      rw [hchars] at h
      rcases number_opens (head_of_readNumber h) with ⟨hspace, hend, hvalue⟩
      refine ⟨⟨c, cs, hchars, hspace, hend⟩, ?_⟩
      intro fuel rest hfuel hrest
      cases fuel with
      | zero => cases hfuel
      | succ fuel =>
          rw [hchars, List.cons_append, hvalue]
          exact extends_readNumber hrest _ _ _ h

/-- A text comes back. -/
theorem returns_text (s : String) : Returns (.text s) := by
  have hprint : (print (.text s)).toList =
      Text.doubleQuote :: (spell s.toList ++ [Text.doubleQuote]) := toList_printText s
  refine ⟨⟨_, _, hprint, rfl, by decide⟩, ?_⟩
  intro fuel rest hfuel _
  cases fuel with
  | zero => cases hfuel
  | succ fuel =>
      have hvalue : ∀ cs, readValue (fuel + 1) (Text.doubleQuote :: cs) =
          (readQuoted cs).map fun found => (ofText found.1, found.2) := fun cs => rfl
      rw [hprint]
      simp only [List.cons_append, List.append_assoc, List.nil_append]
      rw [hvalue, readQuoted_spell]
      rfl

/-- A fixed word is read back. -/
theorem returns_word {j : Json} (c : Char) (word : String) {cs : List Char}
    (hprint : (print j).toList = c :: cs) (hspace : isSpace c = false) (hend : c ≠ ']')
    (hread : ∀ fuel rest, readValue (fuel + 1) (c :: rest) = readWord word j.reread rest)
    (hword : word.toList = cs) : Returns j := by
  refine ⟨⟨c, cs, hprint, hspace, hend⟩, ?_⟩
  intro fuel rest hfuel _
  cases fuel with
  | zero => cases hfuel
  | succ fuel =>
      rw [hprint, List.cons_append, hread]
      simp [readWord, hword]

/-- A number is read as one, or written as the word for nothing. -/
theorem returns_number (n : Number) : Returns (.number n) := by
  rcases n.reads with hread | ⟨hprint, hnull⟩
  · exact returns_numeral hread
  · refine returns_word 'n' "ull" hprint rfl (by decide) (fun _ _ => ?_) rfl
    rw [reread, hnull]
    rfl

/-! ## Lists -/

def joinedItems (items : List Json) : List Char :=
  (",".intercalate (printItems items)).toList

theorem toList_print_list (items : List Json) :
    (print (.list items)).toList = '[' :: (joinedItems items ++ [']']) := by
  simp [print, joinedItems]

theorem joinedItems_single (item : Json) : joinedItems [item] = (print item).toList := by
  simp [joinedItems, printItems]

theorem joinedItems_cons (item next : Json) (rest : List Json) :
    joinedItems (item :: next :: rest) =
      (print item).toList ++ ',' :: joinedItems (next :: rest) := by
  simp [joinedItems, printItems, String.intercalate_cons_cons]

/-- By induction on the items: each comes back, and the mark after it tells whether there are more.
-/
theorem readItems_joined {items : List Json} (hitems : ∀ item ∈ items, Returns item)
    (hne : items ≠ []) (fuel : Nat) (rest : List Char)
    (hfuel : 2 * (joinedItems items).length + 1 < fuel) :
    readItems fuel (joinedItems items ++ ']' :: rest) = some (rereadItems items, rest) := by
  induction items generalizing fuel with
  | nil => exact absurd rfl hne
  | cons item items ih =>
      have hitem := (hitems item List.mem_cons_self).reads
      cases fuel with
      | zero => cases hfuel
      | succ fuel =>
          cases items with
          | nil =>
              rw [joinedItems_single] at hfuel ⊢
              have hread := hitem fuel (']' :: rest) (by omega) (stops_cons (by simp))
              simp [readItems, rereadItems, hread, skipSpace, isSpace]
          | cons next items =>
              rw [joinedItems_cons] at hfuel ⊢
              simp only [List.length_append, List.length_cons] at hfuel
              have hread := hitem fuel (',' :: (joinedItems (next :: items) ++ ']' :: rest))
                (by omega) (stops_cons (by simp))
              have hlater := ih (fun other hother => hitems other (List.mem_cons_of_mem _ hother))
                (List.cons_ne_nil _ _) fuel (by omega)
              simp [readItems, rereadItems, hread, skipSpace, isSpace, hlater]

/-- A list that is not empty does not look like an empty one. -/
theorem joinedItems_opens {items : List Json} (hitems : ∀ item ∈ items, Returns item)
    (hne : items ≠ []) :
    ∃ c cs, joinedItems items = c :: cs ∧ isSpace c = false ∧ c ≠ ']' := by
  cases items with
  | nil => exact absurd rfl hne
  | cons item items =>
      rcases (hitems item List.mem_cons_self).opens with ⟨c, cs, hprint, hspace, hend⟩
      cases items with
      | nil => exact ⟨c, cs, by rw [joinedItems_single, hprint], hspace, hend⟩
      | cons next items =>
          refine ⟨c, cs ++ ',' :: joinedItems (next :: items), ?_, hspace, hend⟩
          rw [joinedItems_cons, hprint]
          rfl

/-- A list comes back if its items do. -/
theorem returns_list {items : List Json} (hitems : ∀ item ∈ items, Returns item) :
    Returns (.list items) := by
  refine ⟨⟨_, _, toList_print_list items, rfl, by decide⟩, ?_⟩
  intro fuel rest hfuel _
  rw [toList_print_list] at hfuel ⊢
  simp only [List.length_cons, List.length_append, List.length_nil] at hfuel
  cases fuel with
  | zero => cases hfuel
  | succ fuel =>
      by_cases hne : items = []
      · subst hne
        rfl
      · rcases joinedItems_opens hitems hne with ⟨c, cs, hjoined, hspace, hend⟩
        have hread := readItems_joined hitems hne fuel rest (by omega)
        rw [hjoined] at hread ⊢
        simp only [List.cons_append, List.append_assoc, List.nil_append] at hread ⊢
        simp [readValue, reread, skipSpace, hspace, hend, hread, show isSpace '[' = false from rfl]

/-! ## Objects -/

def joinedMembers (members : List (String × Json)) : List Char :=
  (",".intercalate (printMembers members)).toList

/-- The characters of a member, from the opening quote of its name on. -/
def spelledMember (name : String) (value : Json) : List Char :=
  Text.doubleQuote :: (spell name.toList ++ Text.doubleQuote :: ':' :: (print value).toList)

theorem toList_print_object (members : List (String × Json)) :
    (print (.object members)).toList = '\x7b' :: (joinedMembers members ++ ['\x7d']) := by
  simp [print, joinedMembers]

theorem toList_member (name : String) (value : Json) :
    (printText name ++ ":" ++ print value).toList = spelledMember name value := by
  simp [toList_printText, spelledMember]

theorem joinedMembers_single (name : String) (value : Json) :
    joinedMembers [(name, value)] = spelledMember name value := by
  simp only [joinedMembers, printMembers, String.intercalate_singleton, toList_member]

theorem joinedMembers_cons (name : String) (value : Json) (next : String × Json)
    (rest : List (String × Json)) :
    joinedMembers ((name, value) :: next :: rest) =
      spelledMember name value ++ ',' :: joinedMembers (next :: rest) := by
  have hcomma : ",".toList = [','] := rfl
  simp only [joinedMembers, printMembers, String.intercalate_cons_cons, String.toList_append,
    ← toList_member, hcomma, List.append_assoc, List.singleton_append]

/-- A member is read up to what stands behind its value. -/
theorem readMembers_spelled {fuel : Nat} {name : String} {value found : Json} {rest : List Char}
    (hread : readValue fuel ((print value).toList ++ rest) = some (found, rest)) :
    readMembers (fuel + 1) (spelledMember name value ++ rest) =
      match skipSpace rest with
      | ',' :: rest =>
        (readMembers fuel rest).map fun (members, rest) => ((some name, found) :: members, rest)
      | '\x7d' :: rest => some ([(some name, found)], rest)
      | _ => none := by
  have hquote : ∀ cs, skipSpace (Text.doubleQuote :: cs) = Text.doubleQuote :: cs :=
    fun cs => rfl
  have hcolon : ∀ cs, skipSpace (':' :: cs) = ':' :: cs := fun cs => rfl
  have hreads := readMembers.eq_2 (spelledMember name value ++ rest) fuel
  simp only [spelledMember, List.cons_append, List.append_assoc, hquote, hcolon, readQuoted_spell,
    hread, bne_self_eq_false, Bool.false_eq_true, if_false] at hreads ⊢
  exact hreads

/-- By induction on the members, like items, each with its name in front. -/
theorem readMembers_joined {members : List (String × Json)}
    (hmembers : ∀ member ∈ members, Returns member.2) (hne : members ≠ []) (fuel : Nat)
    (rest : List Char) (hfuel : 2 * (joinedMembers members).length + 1 < fuel) :
    readMembers fuel (joinedMembers members ++ '\x7d' :: rest) =
      some ((rereadMembers members).map fun member => (some member.1, member.2), rest) := by
  induction members generalizing fuel with
  | nil => exact absurd rfl hne
  | cons member members ih =>
      rcases member with ⟨name, value⟩
      have hvalue : Returns value := hmembers _ List.mem_cons_self
      -- The fuel that is left has to do for the value, so its length is told apart.
      have hlength : (spelledMember name value).length =
          (spell name.toList).length + (print value).toList.length + 3 := by
        simp only [spelledMember, List.length_cons, List.length_append]
        omega
      cases fuel with
      | zero => cases hfuel
      | succ fuel =>
          cases members with
          | nil =>
              rw [joinedMembers_single] at hfuel ⊢
              have hread := hvalue.reads fuel ('\x7d' :: rest) (by omega) (stops_cons (by simp))
              rw [readMembers_spelled hread]
              rfl
          | cons next members =>
              rw [joinedMembers_cons] at hfuel ⊢
              simp only [List.length_append, List.length_cons] at hfuel
              have hread := hvalue.reads fuel
                (',' :: (joinedMembers (next :: members) ++ '\x7d' :: rest))
                (by omega) (stops_cons (by simp))
              have hlater := ih (fun other hother => hmembers other (List.mem_cons_of_mem _ hother))
                (List.cons_ne_nil _ _) fuel (by omega)
              rw [List.append_assoc, List.cons_append, readMembers_spelled hread]
              have hcomma : ∀ cs, skipSpace (',' :: cs) = ',' :: cs := fun cs => rfl
              simp [rereadMembers, hcomma, hlater]

theorem ofMembers_named (members : List (String × Json)) :
    ofMembers (members.map fun member => (some member.1, member.2)) = .object members := by
  have hnames : (members.map fun member => (some member.1, member.2)).mapM
      (fun member : Option String × Json => member.1.map fun name => (name, member.2)) =
      some members := by
    induction members with
    | nil => rfl
    | cons member rest ih => simp [ih]
  simp [ofMembers, hnames]

/-- An object comes back if the values of its members do. -/
theorem returns_object {members : List (String × Json)}
    (hmembers : ∀ member ∈ members, Returns member.2) : Returns (.object members) := by
  refine ⟨⟨_, _, toList_print_object members, rfl, by decide⟩, ?_⟩
  intro fuel rest hfuel _
  rw [toList_print_object] at hfuel ⊢
  simp only [List.length_cons, List.length_append, List.length_nil] at hfuel
  cases fuel with
  | zero => cases hfuel
  | succ fuel =>
      by_cases hne : members = []
      · subst hne
        rfl
      · have hread := readMembers_joined hmembers hne fuel rest (by omega)
        -- The first member starts with a quote, which is not the end of the object.
        have hopens : ∃ cs, joinedMembers members = Text.doubleQuote :: cs := by
          cases members with
          | nil => exact absurd rfl hne
          | cons member members =>
              rcases member with ⟨name, value⟩
              cases members with
              | nil => exact ⟨_, joinedMembers_single name value⟩
              | cons next members => exact ⟨_, joinedMembers_cons name value next members⟩
        rcases hopens with ⟨cs, hjoined⟩
        rw [hjoined] at hread ⊢
        simp only [List.cons_append, List.append_assoc, List.nil_append] at hread ⊢
        have hobject : ∀ cs, readValue (fuel + 1) ('\x7b' :: Text.doubleQuote :: cs) =
            (readMembers fuel (Text.doubleQuote :: cs)).map
              fun (members, rest) => (ofMembers members, rest) := fun cs => rfl
        rw [hobject, hread]
        simp [ofMembers_named, reread]

/-! ## Whole documents -/

mutual

/-- Every document is read again from its text. -/
theorem returns : ∀ j : Json, Returns j
  | .null => returns_word 'n' "ull" rfl rfl (by decide) (fun _ _ => rfl) rfl
  | .bool true => returns_word 't' "rue" rfl rfl (by decide) (fun _ _ => rfl) rfl
  | .bool false => returns_word 'f' "alse" rfl rfl (by decide) (fun _ _ => rfl) rfl
  | .number n => returns_number n
  | .text s => returns_text s
  | .list items => returns_list (returns_items items)
  | .object members => returns_object (returns_members members)
  | .unreadable => returns_numeral rfl

theorem returns_items : ∀ items : List Json, ∀ item ∈ items, Returns item
  | [], _, h => by cases h
  | item :: rest, other, h => by
      rcases List.mem_cons.1 h with hfirst | hlater
      · rw [hfirst]
        exact returns item
      · exact returns_items rest other hlater

theorem returns_members : ∀ members : List (String × Json), ∀ member ∈ members, Returns member.2
  | [], _, h => by cases h
  | (name, value) :: rest, other, h => by
      rcases List.mem_cons.1 h with hfirst | hlater
      · rw [hfirst]
        exact returns value
      · exact returns_members rest other hlater

end

/-- What is printed is well formed. -/
theorem parseForm_print (j : Json) : parseForm (print j) = some j.reread := by
  have hread := (returns j).reads (2 * (print j).toList.length + 2) [] (by omega) stops_nil
  rw [List.append_nil] at hread
  simp [parseForm, parseChars, hread, skipSpace]

/-- Documents that can be printed without loss are reread as themselves. -/
theorem Faithful.reread {j : Json} (h : Faithful j) : j.reread = j := by
  induction h with
  | null => rfl
  | bool b => rfl
  | @natural n hn =>
      have hread : readNumber (printNumber (.natural n)).toList = some (.number (.natural n), []) := by
        simpa [printNumber] using readNumber_digitChars hn
      simp [Json.reread, Number.reread, hread]
  | @real x hreads =>
      have hread : readNumber (printNumber (.real x)).toList = some (.number (.real x), []) := hreads
      simp [Json.reread, Number.reread, hread]
  | text s => rfl
  | list _ ih =>
      rw [Json.reread, rereadItems_eq, List.map_congr_left ih, List.map_id']
  | object _ ih =>
      rw [Json.reread, rereadMembers_eq]
      congr 1
      refine (List.map_congr_left fun member hmember => ?_).trans (List.map_id' _)
      rw [ih member hmember]

theorem legibleItems_of_forall {items : List Json}
    (h : ∀ item ∈ items, item.legible = true) : legibleItems items = true := by
  induction items with
  | nil => rfl
  | cons item rest ih =>
      have hitem := h item List.mem_cons_self
      have hrest := ih fun other hother => h other (List.mem_cons_of_mem _ hother)
      simp [legibleItems, hitem, hrest]

theorem legibleMembers_of_forall {members : List (String × Json)}
    (h : ∀ member ∈ members, member.2.legible = true) : legibleMembers members = true := by
  induction members with
  | nil => rfl
  | cons member rest ih =>
      have hmember := h member List.mem_cons_self
      have hrest := ih fun other hother => h other (List.mem_cons_of_mem _ hother)
      simp [legibleMembers, hmember, hrest]

/-- What is printed without loss stands for something. -/
theorem Faithful.legible {j : Json} (h : Faithful j) : j.legible = true := by
  induction h with
  | null => rfl
  | bool b => rfl
  | natural _ => rfl
  | real _ => rfl
  | text s => rfl
  | list _ ih => exact legibleItems_of_forall ih
  | object _ ih => exact legibleMembers_of_forall ih

/-- A document that can be printed without loss is read back from its text. -/
theorem parse_print {j : Json} (h : Faithful j) (hdepth : j.depth ≤ maxDepth) :
    parse (print j) = some j := by
  simp [parse, parseForm_print, h.reread, whole, h.legible, hdepth]

end Json
end StoryPlayer
