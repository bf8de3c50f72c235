import LineScopes.Proofs.Selector.Accepted

/-!
# Writing selectors

A selector is written down with parentheses around every list of names and around every conjunction
and alternation inside another selector. Then each part starts and ends with a sign, so its text is
cut into the same tokens whatever stands around it, and the tokens are those of the grammar.

**Main definitions.** `writeSelector`, `Printable`, `Spells`.

**Main statements.** `parseSelector_writeSelector`: what is written is read back.
-/

namespace LineScopes
namespace Selector

section Texts

mutual

/-- The text of a selector inside another one. -/
def operandText : Selector → String
  | names ids => "(" ++ " ".intercalate ids ++ ")"
  | all parts => "(" ++ " ".intercalate (operandTexts parts) ++ ")"
  | any parts => "(" ++ " | ".intercalate (operandTexts parts) ++ ")"
  | not part => "-" ++ operandText part

/-- The texts of the parts of a selector. -/
def operandTexts : List Selector → List String
  | [] => []
  | s :: rest => operandText s :: operandTexts rest

end

/-- The text of a selector that stands alone. -/
def text : Selector → String
  | all parts => " ".intercalate (operandTexts parts)
  | s => operandText s

theorem operandTexts_eq_map (parts : List Selector) :
    operandTexts parts = parts.map operandText := by
  induction parts with
  | nil =>
      rfl
  | cons s rest ih =>
      rw [operandTexts, List.map_cons, ih]

end Texts

end Selector

/-- The mark of a priority. -/
def Priority.mark : Priority → String
  | left => "L:"
  | normal => ""
  | right => "R:"

/-- The text of an alternative, behind the mark of its priority. -/
def Alternative.text (a : Alternative) : String :=
  a.priority.mark ++ a.selector.text

/-- The text of a selector with all its alternatives. -/
def writeSelector (alternatives : List Alternative) : String :=
  ", ".intercalate (alternatives.map Alternative.text)

namespace Selector

section Printable

/-- An ASCII character that starts a name. -/
def startsAsciiName (c : Char) : Bool :=
  c.isAlphanum || c == '_' || c == '.' || c == ':'

/-- A name of ASCII characters that does not start with a priority mark. -/
structure IsAsciiName (id : String) : Prop where
  start : id.toList.head?.any startsAsciiName = true
  chars : ∀ c ∈ id.toList, startsAsciiName c = true ∨ c = '-'
  left : ¬ "L:".toList <+: id.toList
  right : ¬ "R:".toList <+: id.toList

theorem isAsciiName_iff
    {id : String} :
    IsAsciiName id ↔ id.toList.head?.any startsAsciiName = true ∧
      (id.toList.all fun c => startsAsciiName c || c == '-') = true ∧
      ¬ "L:".toList <+: id.toList ∧ ¬ "R:".toList <+: id.toList := by
  have hchars : (id.toList.all fun c => startsAsciiName c || c == '-') = true ↔
      ∀ c ∈ id.toList, startsAsciiName c = true ∨ c = '-' := by
    simp
  rw [hchars]
  exact ⟨fun h => ⟨h.start, h.chars, h.left, h.right⟩, fun h => ⟨h.1, h.2.1, h.2.2.1, h.2.2.2⟩⟩

instance (id : String) : Decidable (IsAsciiName id) :=
  decidable_of_iff _ isAsciiName_iff.symm

/-- Selectors with names everywhere and at least two parts in every conjunction and alternation. -/
inductive Printable : Selector → Prop
  | names
      {ids : List String}
      (hne : ids ≠ [])
      (hids : ∀ i ∈ ids, IsAsciiName i) :
      Printable (.names ids)
  | all
      {parts : List Selector}
      (hlength : 2 ≤ parts.length)
      (hparts : ∀ s ∈ parts, Printable s) :
      Printable (.all parts)
  | any
      {parts : List Selector}
      (hlength : 2 ≤ parts.length)
      (hparts : ∀ s ∈ parts, Printable s) :
      Printable (.any parts)
  | not
      {part : Selector}
      (hpart : Printable part) :
      Printable (.not part)

end Printable

section Spelling

variable {c : Char} {t : Token} {cs ds rest : List Char} {ts us : List Token}

/-- The characters are cut into the tokens, whatever follows them. -/
def Spells (cs : List Char) (ts : List Token) : Prop :=
  ∀ rest, scanTokens (cs ++ rest) = ts ++ scanTokens rest

theorem Spells.append
    (h : Spells cs ts)
    (h' : Spells ds us) :
    Spells (cs ++ ds) (ts ++ us) := by
  intro rest
  rw [List.append_assoc, h, h', List.append_assoc]

theorem spells_nil :
    Spells [] [] :=
  fun _ => rfl

/-- A character that starts no word is a sign or is skipped. -/
theorem scanTokens_of_not_startsWord
    (h : startsWord c = false)
    (rest : List Char) :
    scanTokens (c :: rest) = (sign? c).toList ++ scanTokens rest := by
  have hmark : c ≠ 'L' ∧ c ≠ 'R' := by
    constructor <;> rintro rfl <;> exact absurd h (by decide)
  rw [scanTokens, if_neg (by simp [h])]
  · cases sign? c <;> rfl
  · exact fun _ hc _ => hmark.1 hc
  · exact fun _ hc _ => hmark.2 hc

theorem spells_of_not_startsWord
    (h : startsWord c = false) :
    Spells [c] (sign? c).toList :=
  scanTokens_of_not_startsWord h

theorem spells_lparen :
    Spells "(".toList [.lparen] :=
  spells_of_not_startsWord (by decide)

theorem spells_rparen :
    Spells ")".toList [.rparen] :=
  spells_of_not_startsWord (by decide)

theorem spells_minus :
    Spells "-".toList [.minus] :=
  spells_of_not_startsWord (by decide)

theorem spells_blank :
    Spells " ".toList [] :=
  spells_of_not_startsWord (by decide)

theorem spells_bar :
    Spells " | ".toList [.bar] :=
  (spells_blank.append (spells_of_not_startsWord (c := '|') (by decide))).append spells_blank

theorem spells_comma :
    Spells ", ".toList [.comma] :=
  (spells_of_not_startsWord (c := ',') (by decide)).append spells_blank

/-- What stands in parentheses is spelled on its own. -/
theorem Spells.parenthesized
    {s : String}
    (h : Spells s.toList ts) :
    Spells ("(" ++ s ++ ")").toList (.lparen :: ts ++ [.rparen]) := by
  rw [String.toList_append, String.toList_append]
  exact (spells_lparen.append h).append spells_rparen

theorem spells_left :
    Spells "L:".toList [.word "L:"] := by
  intro rest
  change scanTokens ('L' :: ':' :: rest) = _
  rw [scanTokens]
  rfl

theorem spells_right :
    Spells "R:".toList [.word "R:"] := by
  intro rest
  change scanTokens ('R' :: ':' :: rest) = _
  rw [scanTokens]
  rfl

end Spelling

section Names

variable {id : String} {ids : List String} {c : Char} {rest : List Char}

theorem startsWord_of_ascii
    (h : startsAsciiName c = true) :
    startsWord c = true := by
  simp only [startsAsciiName, Bool.or_eq_true] at h
  rcases h with ((h | h) | h) | h <;> simp [startsWord, Unicode.isWord, h]

theorem IsAsciiName.exists_cons
    (h : IsAsciiName id) :
    ∃ c cs, id.toList = c :: cs ∧ startsAsciiName c = true := by
  have hstart := h.start
  cases hid : id.toList with
  | nil =>
      rw [hid] at hstart
      cases hstart
  | cons c cs =>
      rw [hid] at hstart
      exact ⟨c, cs, rfl, hstart⟩

theorem IsAsciiName.isName
    (h : IsAsciiName id) :
    Token.isName id = true := by
  obtain ⟨c, cs, hid, hc⟩ := h.exists_cons
  simp only [startsAsciiName, Bool.or_eq_true] at hc
  rcases hc with ((hc | hc) | hc) | hc <;> simp [Token.isName, hid, Unicode.isAlphanumeric, hc]

/-- A name is one token where no further character of a word follows. -/
theorem IsAsciiName.scanTokens
    (h : IsAsciiName id)
    (hc : continuesWord c = false)
    (rest : List Char) :
    scanTokens (id.toList ++ c :: rest) = .word id :: scanTokens (c :: rest) := by
  obtain ⟨d, ds, hid, hd⟩ := h.exists_cons
  have hds : ∀ e ∈ ds, continuesWord e = true := by
    intro e he
    rcases h.chars e (hid ▸ List.mem_cons_of_mem d he) with hstart | rfl
    · simp [continuesWord, startsWord_of_ascii hstart]
    · simp [continuesWord]
  have hmark : ∀ m : Char, ¬ [m, ':'] <+: id.toList → ∀ more, d = m →
      ds ++ c :: rest = ':' :: more → False := by
    rintro m hm more rfl hmore
    cases ds with
    | nil =>
        obtain ⟨rfl, -⟩ := List.cons.inj hmore
        cases hc
    | cons e ds =>
        obtain ⟨rfl, -⟩ := List.cons.inj hmore
        exact hm (hid ▸ ⟨ds, rfl⟩)
  rw [hid, List.cons_append, Selector.scanTokens, if_pos (startsWord_of_ascii hd),
    List.takeWhile_append_of_pos hds, List.dropWhile_append_of_pos hds,
    List.takeWhile_cons_of_neg (by simp [hc]), List.dropWhile_cons_of_neg (by simp [hc]),
    List.append_nil, ← hid, String.ofList_toList]
  · exact hmark 'L' h.left
  · exact hmark 'R' h.right

/-- Names between blanks are one token each. -/
theorem scanTokens_names
    (hids : ∀ i ∈ ids, IsAsciiName i)
    (rest : List Char) :
    scanTokens ((" ".intercalate ids).toList ++ ')' :: rest) =
      ids.map .word ++ scanTokens (')' :: rest) := by
  induction ids with
  | nil =>
      rfl
  | cons i ids ih =>
      obtain ⟨hi, hrest⟩ := List.forall_mem_cons.mp hids
      cases ids with
      | nil =>
          rw [String.intercalate_singleton, hi.scanTokens (by decide)]
          rfl
      | cons j ids =>
          rw [String.intercalate_cons_cons, String.toList_append, String.toList_append,
            List.append_assoc, List.append_assoc]
          change scanTokens (i.toList ++ ' ' :: _) = _
          rw [hi.scanTokens (by decide)]
          change _ :: scanTokens (" ".toList ++ _) = _
          rw [spells_blank, List.nil_append, ih hrest]
          rfl

/-- Names in parentheses are cut into themselves. -/
theorem spells_names
    (hids : ∀ i ∈ ids, IsAsciiName i) :
    Spells (operandText (.names ids)).toList (.lparen :: ids.map .word ++ [.rparen]) := by
  intro rest
  rw [operandText, String.toList_append, String.toList_append, List.append_assoc, List.append_assoc,
    spells_lparen]
  change _ ++ scanTokens (_ ++ ')' :: rest) = _
  rw [scanTokens_names hids]
  change _ ++ (_ ++ scanTokens (")".toList ++ rest)) = _
  rw [spells_rparen]
  simp

end Names

section Operands

variable {s : Selector} {parts : List Selector} {ts : List Token}

theorem allOf_of_two_le
    (h : 2 ≤ parts.length) :
    allOf parts = .all parts := by
  match parts, h with
  | _ :: _ :: _, _ => rfl

theorem anyOf_of_two_le
    (h : 2 ≤ parts.length) :
    anyOf parts = .any parts := by
  match parts, h with
  | _ :: _ :: _, _ => rfl

/-- The text of a selector inside another one is cut into the tokens of an operand, and neither the
first nor the last of them is a name. -/
def SpelledOperand (s : Selector) : Prop :=
  ∃ ts, Spells (operandText s).toList ts ∧ Operand ts s ∧ ¬ StartsWithName ts ∧ ¬ EndsInName ts

/-- A choice is an operand in parentheses. -/
theorem spelledOperand_of_choice
    (hspells : Spells (operandText s).toList (.lparen :: ts ++ [.rparen]))
    (h : Choice ts parts)
    (hs : anyOf parts = s) :
    SpelledOperand s := by
  refine ⟨.lparen :: ts ++ [.rparen], hspells, ?_, ?_, ?_⟩
  · have hgroup := Operand.group (List.forall_mem_nil _) h (List.forall_mem_nil _)
    rwa [List.nil_append, List.append_nil, hs] at hgroup
  · rw [List.cons_append, startsWithName_cons_iff]
    exact fun hname => hname rfl
  · rw [endsInName_append_singleton_iff]
    exact fun hname => hname rfl

/-- Operands with blanks between them are a sequence. -/
theorem exists_sequence
    (hne : parts ≠ [])
    (h : ∀ s ∈ parts, SpelledOperand s) :
    ∃ ts, Spells (" ".intercalate (parts.map operandText)).toList ts ∧ Sequence ts parts ∧
      ¬ StartsWithName ts := by
  induction parts with
  | nil =>
      exact absurd rfl hne
  | cons s parts ih =>
      obtain ⟨⟨ts, hspells, hs, hstarts, hends⟩, hparts⟩ := List.forall_mem_cons.mp h
      cases parts with
      | nil =>
          exact ⟨ts, by simpa using hspells, .last hs, hstarts⟩
      | cons s' parts =>
          obtain ⟨us, hspells', hus, -⟩ := ih (List.cons_ne_nil _ _) hparts
          refine ⟨ts ++ us, ?_, .cons hs (fun hname => absurd hname hends) hus, ?_⟩
          · rw [List.map_cons, List.map_cons, String.intercalate_cons_cons, String.toList_append,
              String.toList_append]
            simpa using (hspells.append spells_blank).append hspells'
          · obtain ⟨t, ts, rfl⟩ := List.exists_cons_of_ne_nil hs.ne_nil
            exact hstarts

/-- Operands with bars between them are a choice. -/
theorem exists_choice
    (hne : parts ≠ [])
    (h : ∀ s ∈ parts, SpelledOperand s) :
    ∃ ts, Spells (" | ".intercalate (parts.map operandText)).toList ts ∧ Choice ts parts := by
  induction parts with
  | nil =>
      exact absurd rfl hne
  | cons s parts ih =>
      obtain ⟨⟨ts, hspells, hs, -, -⟩, hparts⟩ := List.forall_mem_cons.mp h
      cases parts with
      | nil =>
          exact ⟨ts, by simpa using hspells, .last (.last hs)⟩
      | cons s' parts =>
          obtain ⟨us, hspells', hus⟩ := ih (List.cons_ne_nil _ _) hparts
          have hbar : Separators [.bar] := by
            simp [Separators, Token.isSeparator]
          refine ⟨ts ++ [.bar] ++ us, ?_, .cons (.last hs) (List.cons_ne_nil _ _) hbar hus⟩
          rw [List.map_cons, List.map_cons, String.intercalate_cons_cons, String.toList_append,
            String.toList_append]
          exact (hspells.append spells_bar).append hspells'

/-- Every selector that can be written is spelled inside another one. -/
theorem Printable.spelledOperand
    (h : Printable s) :
    SpelledOperand s := by
  induction h with
  | names hne hids =>
      exact spelledOperand_of_choice (spells_names hids)
        (.last (.last (.names hne fun i hi => (hids i hi).isName))) rfl
  | all hlength hparts ih =>
      obtain ⟨ts, hspells, hts, -⟩ := exists_sequence (List.length_pos_iff.mp (by omega)) ih
      refine spelledOperand_of_choice ?_ (.last hts) (allOf_of_two_le hlength)
      rw [operandText, operandTexts_eq_map]
      exact hspells.parenthesized
  | any hlength hparts ih =>
      obtain ⟨ts, hspells, hts⟩ := exists_choice (List.length_pos_iff.mp (by omega)) ih
      refine spelledOperand_of_choice ?_ hts (anyOf_of_two_le hlength)
      rw [operandText, operandTexts_eq_map]
      exact hspells.parenthesized
  | not hpart ih =>
      obtain ⟨ts, hspells, hts, hstarts, hends⟩ := ih
      refine ⟨.minus :: ts, ?_, .negation hts, ?_, ?_⟩
      · rw [operandText, String.toList_append]
        exact spells_minus.append hspells
      · rw [startsWithName_cons_iff]
        exact fun hname => hname rfl
      · exact fun hname => hends (hname.of_cons fun hname => hname rfl)

/-- A selector that stands alone is spelled as a sequence. -/
theorem Printable.exists_sequence
    (h : Printable s) :
    ∃ ts parts, Spells s.text.toList ts ∧ Sequence ts parts ∧ allOf parts = s ∧
      ¬ StartsWithName ts := by
  cases h with
  | @all parts hlength hparts =>
      obtain ⟨ts, hspells, hts, hstarts⟩ := Selector.exists_sequence
        (List.length_pos_iff.mp (by omega)) fun s hs => (hparts s hs).spelledOperand
      rw [← operandTexts_eq_map] at hspells
      exact ⟨ts, parts, hspells, hts, allOf_of_two_le hlength, hstarts⟩
  | names hne hids =>
      obtain ⟨ts, hspells, hts, hstarts, -⟩ := (Printable.names hne hids).spelledOperand
      exact ⟨ts, _, hspells, .last hts, rfl, hstarts⟩
  | any hlength hparts =>
      obtain ⟨ts, hspells, hts, hstarts, -⟩ := (Printable.any hlength hparts).spelledOperand
      exact ⟨ts, _, hspells, .last hts, rfl, hstarts⟩
  | not hpart =>
      obtain ⟨ts, hspells, hts, hstarts, -⟩ := hpart.not.spelledOperand
      exact ⟨ts, _, hspells, .last hts, rfl, hstarts⟩

end Operands

section Alternatives

variable {a : Alternative} {alts : List Alternative}

/-- An alternative is spelled behind the mark of its priority. -/
theorem exists_clause
    (h : Printable a.selector) :
    ∃ ts, Spells a.text.toList ts ∧ Clause ts (some a) := by
  obtain ⟨ts, parts, hspells, hts, hparts, hstarts⟩ := h.exists_sequence
  obtain ⟨priority, selector⟩ := a
  obtain rfl := hparts
  rw [Alternative.text, String.toList_append]
  cases priority with
  | left =>
      exact ⟨_, spells_left.append hspells, .left hts⟩
  | right =>
      exact ⟨_, spells_right.append hspells, .right hts⟩
  | normal =>
      have hword : ∀ mark, Token.isName mark = true → ts.head? ≠ some (.word mark) := by
        intro mark hmark hhead
        exact hstarts ⟨_, hhead, by simp [IsName, name?_word hmark]⟩
      exact ⟨ts, hspells, .plain hts (hword _ (by decide)) (hword _ (by decide))⟩

/-- A list of alternatives is spelled with commas between them. -/
theorem exists_written
    (h : ∀ a ∈ alts, Printable a.selector) :
    ∃ ts, Spells (writeSelector alts).toList ts ∧ Written ts alts := by
  rw [writeSelector]
  induction alts with
  | nil =>
      exact ⟨[], spells_nil, .last .empty⟩
  | cons a alts ih =>
      obtain ⟨ha, hrest⟩ := List.forall_mem_cons.mp h
      obtain ⟨ts, hspells, hts⟩ := exists_clause ha
      cases alts with
      | nil =>
          exact ⟨ts, by simpa using hspells, .last hts⟩
      | cons b alts =>
          obtain ⟨us, hspells', hus⟩ := ih hrest
          refine ⟨ts ++ [.comma] ++ us, ?_, ?_⟩
          · rw [List.map_cons, List.map_cons, String.intercalate_cons_cons, String.toList_append,
              String.toList_append]
            exact (hspells.append spells_comma).append hspells'
          · rw [List.append_assoc]
            exact .cons hts rfl hus

/-- A selector that is written down is read back as it was. -/
theorem parseSelector_writeSelector
    (h : ∀ a ∈ alts, Printable a.selector) :
    parseSelector (writeSelector alts) = .ok alts := by
  obtain ⟨ts, hspells, hts⟩ := exists_written h
  have htokens : tokens (writeSelector alts) = ts := by
    have hread := hspells []
    rwa [List.append_nil, scanTokens, List.append_nil] at hread
  rw [parseSelector, parse, htokens, hts.reads]

/-- Alternatives that nest, with names like priority marks and hyphens next to `-`. -/
def nested : List Alternative := [
  ⟨.left, .all [.names ["source.js", "L"],
    .not (.any [.names ["no-comment"], .not (.names ["R."])])]⟩,
  ⟨.right, .not (.not (.names [":a", "_b-"]))⟩,
  ⟨.normal, .any [.any [.names ["a"], .names ["b"]], .names ["c"]]⟩]

theorem parseSelector_writeSelector_nested :
    writeSelector nested = "L:(source.js L) -((no-comment) | -(R.)), " ++
        "R:--(:a _b-), (((a) | (b)) | (c))" ∧
      (∀ a ∈ nested, Printable a.selector) ∧
      parseSelector (writeSelector nested) = .ok nested := by
  have both : ∀ {s s'}, Printable s → Printable s' → ∀ part ∈ [s, s'], Printable part :=
    fun hs hs' => List.forall_mem_cons.mpr ⟨hs, List.forall_mem_singleton.mpr hs'⟩
  have hprintable : ∀ a ∈ nested, Printable a.selector := by
    have hleft : Printable (.all [.names ["source.js", "L"],
        .not (.any [.names ["no-comment"], .not (.names ["R."])])]) :=
      .all (by decide) (both (.names (by decide) (by decide +kernel))
        (.not (.any (by decide) (both (.names (by decide) (by decide +kernel))
          (.not (.names (by decide) (by decide +kernel)))))))
    have hright : Printable (.not (.not (.names [":a", "_b-"]))) :=
      .not (.not (.names (by decide) (by decide +kernel)))
    have hnormal : Printable (.any [.any [.names ["a"], .names ["b"]], .names ["c"]]) :=
      .any (by decide) (both (.any (by decide) (both (.names (by decide) (by decide +kernel))
        (.names (by decide) (by decide +kernel)))) (.names (by decide) (by decide +kernel)))
    simp [nested, hleft, hright, hnormal]
  exact ⟨by decide +kernel, hprintable, parseSelector_writeSelector hprintable⟩

end Alternatives

end Selector
end LineScopes
