import LineScopes.Proofs.Pattern.TemplateSearch
import LineScopes.Text.Boundary

/-!
# One pass over a template

A template is read from left to right as literal text and references, each reference being the
leftmost one behind the reference before it. The reading depends on the template alone. A name is
the literal text with the text of its group in the place of each reference, so that captured text is
never read as a part of the template.

**Main definitions.** `TemplatePiece`, `NameTemplate.Reads`, `NameTemplate.cuts`.

**Main statements.** `exists_reads`, `Reads.eq`: there is one reading. `insert_found`: one round of
the loop. `Reads.finish_foldl_references`: the loop writes the pieces of the reading.
`resolve_eq_finish`: so does a pass without the loop. `resolve_of_reading` puts them together.
-/

namespace LineScopes

/-- A piece of a template. -/
inductive TemplatePiece where
  | literal (cs : List Char)
  | reference (r : GroupReference)
deriving DecidableEq, Repr

/-- The text of a piece in a name. -/
def TemplatePiece.text
    (line : String)
    (groups : Groups) : TemplatePiece → String
  | literal cs => String.ofList cs
  | reference r => r.inserted line groups

namespace NameTemplate

open GroupReference

/-- The pieces of a template, from left to right. -/
inductive Reads : List Char → List TemplatePiece → Prop
  | last
      {cs : List Char}
      (hnone : NoneBefore cs []) :
      Reads cs [.literal cs]
  | next
      {before cs rest : List Char}
      {r : GroupReference}
      {pieces : List TemplatePiece}
      (hbefore : NoneBefore before cs)
      (hopens : r.Opens cs rest)
      (hrest : Reads rest pieces) :
      Reads (before ++ cs) (.literal before :: .reference r :: pieces)

section Reading

variable {cs cs' rest rest' before before' : List Char} {r s : GroupReference}
  {pieces pieces' : List TemplatePiece}

theorem ne_nil_of_opens
    (hr : r.Opens cs rest) :
    cs ≠ [] := by
  rw [hr.eq_append, written]
  split <;> simp

/-- There is one leftmost reference. -/
theorem eq_of_noneBefore
    (hbefore : NoneBefore before cs)
    (hbefore' : NoneBefore before' cs')
    (hr : r.Opens cs rest)
    (hs : s.Opens cs' rest')
    (h : before ++ cs = before' ++ cs') :
    before = before' ∧ cs = cs' := by
  rcases List.append_eq_append_iff.mp h with ⟨between, rfl, rfl⟩ | ⟨between, rfl, rfl⟩
  · by_cases hne : between = []
    · simp [hne]
    · exact absurd hr (hbefore' between r rest (List.suffix_append before between) hne)
  · by_cases hne : between = []
    · simp [hne]
    · exact absurd hs (hbefore between s rest' (List.suffix_append before' between) hne)

theorem not_noneBefore_of_opens
    (hr : r.Opens cs rest) :
    ¬ NoneBefore (before ++ cs) [] := by
  intro hnone
  refine hnone cs r rest (List.suffix_append before cs) (ne_nil_of_opens hr) ?_
  rwa [List.append_nil]

/-- A text is read in one way. -/
theorem Reads.eq
    (hcs : AsciiDigits cs)
    (h : Reads cs pieces)
    (h' : Reads cs pieces') :
    pieces = pieces' := by
  induction h generalizing pieces' with
  | last hnone =>
      cases h' with
      | last =>
          rfl
      | next _ hs _ =>
          exact absurd hnone (not_noneBefore_of_opens hs)
  | @next before cs rest r pieces hbefore hr hrest ih =>
      generalize htext : before ++ cs = text at h'
      cases h' with
      | last hnone =>
          subst htext
          exact absurd hnone (not_noneBefore_of_opens hr)
      | next hbefore' hs hrest' =>
          -- both readings go on behind the same reference
          obtain ⟨rfl, rfl⟩ := eq_of_noneBefore hbefore hbefore' hr hs htext
          obtain ⟨rfl, rfl⟩ := eq_of_opens hcs.of_append hr hs
          rw [ih (hcs.of_append.behind hr) hrest']

/-- A text without references, or its leftmost reference. -/
theorem noneBefore_or_exists_opens
    (cs : List Char) :
    NoneBefore cs [] ∨
      ∃ before after r rest, cs = before ++ after ∧ NoneBefore before after ∧
        Opens r after rest := by
  induction cs with
  | nil =>
      refine .inl fun b r rest hb hne => ?_
      exact absurd (List.suffix_nil.mp hb) hne
  | cons c cs ih =>
      by_cases hhere : ∃ r rest, Opens r (c :: cs) rest
      · obtain ⟨r, rest, hr⟩ := hhere
        refine .inr ⟨[], c :: cs, r, rest, rfl, fun b r rest hb hne => ?_, hr⟩
        exact absurd (List.suffix_nil.mp hb) hne
      · simp only [not_exists] at hhere
        rcases ih with hnone | ⟨before, after, r, rest, rfl, hbefore, hr⟩
        · refine .inl (noneBefore_cons_iff.mpr ⟨?_, hnone⟩)
          rwa [List.append_nil]
        · exact .inr ⟨c :: before, after, r, rest, rfl,
            noneBefore_cons_iff.mpr ⟨hhere, hbefore⟩, hr⟩

theorem length_lt_of_opens
    (hr : r.Opens cs rest) :
    rest.length < cs.length := by
  rw [hr.eq_append, List.length_append, written]
  split <;> simp

/-- Every text can be read. -/
theorem exists_reads
    (cs : List Char) :
    ∃ pieces, Reads cs pieces := by
  induction hn : cs.length using Nat.strong_induction_on generalizing cs with
  | _ n ih =>
      rcases noneBefore_or_exists_opens cs with hnone | ⟨before, after, r, rest, rfl, hbefore, hr⟩
      · exact ⟨_, .last hnone⟩
      · have hlt := length_lt_of_opens hr
        rw [List.length_append] at hn
        obtain ⟨pieces, hpieces⟩ := ih rest.length (by omega) rest rfl
        exact ⟨_, .next hbefore hr hpieces⟩

end Reading

section Loop

variable {t : NameTemplate} {line front : String} {groups : Groups}
  {cs rest before : List Char} {r : GroupReference} {pieces : List TemplatePiece}

/-- The number of a reference selects the group that its digits say. A number that is too large to
be read is larger than any list of groups. -/
theorem bind_index?_of_opens
    (hr : r.Opens cs rest)
    (hgroups : groups.length ≤ Text.Decimal.indexBound) :
    (Text.Decimal.index? (String.ofList r.digits)).bind (groups[·]?) =
      groups[Text.Decimal.value r.digits]? := by
  rw [Text.Decimal.index?_ofList hr.ne_nil hr.isDigit]
  split
  · rfl
  · rename_i hlarge
    exact (List.getElem?_eq_none (hgroups.trans (Nat.not_lt.mp hlarge))).symm

/-- What is inserted for a reference that was found. -/
theorem inserted_found
    {offset : Nat}
    (hr : r.Opens cs rest)
    (hgroups : groups.length ≤ Text.Decimal.indexBound)
    (hslice : Text.slice? t.text offset (offset + (String.ofList r.written).utf8ByteSize) =
      some (String.ofList r.written)) :
    t.inserted line groups (r.found offset) = r.inserted line groups := by
  unfold inserted GroupReference.inserted
  rw [request_found, bind_index?_of_opens hr hgroups, span_found, Text.slice, hslice]
  cases groups[Text.Decimal.value r.digits]? with
  | none =>
      rfl
  | some group =>
      exact CaseChange.changeCase_word? _ _

theorem text_eq_of_opens
    (hr : r.Opens cs rest)
    (htext : t.text = front ++ String.ofList (before ++ cs)) :
    t.text =
      front ++ (String.ofList before ++ (String.ofList r.written ++ String.ofList rest)) := by
  rw [htext, hr.eq_append, String.ofList_append, String.ofList_append]

/-- The text before a reference is cut out, and so is the reference. -/
theorem slice?_parts
    {after : String}
    (htext : t.text = front ++ (String.ofList before ++ (String.ofList r.written ++ after))) :
    Text.slice? t.text front.utf8ByteSize
        (front.utf8ByteSize + (String.ofList before).utf8ByteSize) =
      some (String.ofList before) ∧
    Text.slice? t.text (front.utf8ByteSize + (String.ofList before).utf8ByteSize)
        (front.utf8ByteSize + (String.ofList before).utf8ByteSize +
          (String.ofList r.written).utf8ByteSize) =
      some (String.ofList r.written) := by
  have hreference :=
    Text.slice?_append (front ++ String.ofList before) (String.ofList r.written) after
  rw [String.append_assoc, ← htext, String.utf8ByteSize_append] at hreference
  rw [htext, Text.slice?_append, ← htext]
  exact ⟨rfl, hreference⟩

/-- The text before a reference is copied, and the reference is replaced. -/
theorem insert_found
    {after : String}
    (hr : r.Opens cs rest)
    (hgroups : groups.length ≤ Text.Decimal.indexBound)
    (htext : t.text = front ++ (String.ofList before ++ (String.ofList r.written ++ after)))
    (out : String) :
    Expansion.insert t line groups ⟨out, front.utf8ByteSize⟩
        (r.found (front.utf8ByteSize + (String.ofList before).utf8ByteSize)) =
      ⟨out ++ String.ofList before ++ r.inserted line groups,
        (front ++ String.ofList before ++ String.ofList r.written).utf8ByteSize⟩ := by
  obtain ⟨hcopied, hreference⟩ := slice?_parts htext
  unfold Expansion.insert
  rw [inserted_found hr hgroups hreference, span_found, Text.slice, hcopied, Option.getD_some,
    String.utf8ByteSize_append, String.utf8ByteSize_append]

theorem references_of_opens
    (hcs : AsciiDigits (before ++ cs))
    (hbefore : NoneBefore before cs)
    (hr : r.Opens cs rest) :
    references front.utf8ByteSize (before ++ cs) =
      r.found (front.utf8ByteSize + (String.ofList before).utf8ByteSize) ::
        references (front ++ String.ofList before ++ String.ofList r.written).utf8ByteSize
          rest := by
  rw [references_of_find? (find?_of_opens _ hcs hbefore hr), span_found,
    String.utf8ByteSize_append, String.utf8ByteSize_append]

/-- The loop writes what is left of the template piece by piece. -/
theorem Reads.finish_foldl_references
    (h : Reads cs pieces)
    (hcs : AsciiDigits cs)
    (hgroups : groups.length ≤ Text.Decimal.indexBound)
    (htext : t.text = front ++ String.ofList cs)
    (out : String) :
    ((references front.utf8ByteSize cs).foldl (Expansion.insert t line groups)
        ⟨out, front.utf8ByteSize⟩).finish t =
      out ++ String.join (pieces.map (TemplatePiece.text line groups)) := by
  induction h generalizing front out with
  | last hnone =>
      rw [references_of_find?_eq_none (find?_eq_none _ hcs hnone), List.foldl_nil,
        Expansion.finish, htext, Text.sliceFrom_append]
      simp [TemplatePiece.text]
  | next hbefore hr hrest ih =>
      -- after one round the reference belongs to the front of the template
      have hparts := text_eq_of_opens hr htext
      rw [references_of_opens hcs hbefore hr, List.foldl_cons, insert_found hr hgroups hparts,
        ih (hcs.of_append.behind hr)]
      · simp [TemplatePiece.text, String.append_assoc]
      · simp [hparts, String.append_assoc]

/-- The parts of a template that are cut out in a pass: each reference, what stands before it, and
what stands behind the last one. -/
def cuts (t : NameTemplate) : (last : Nat) → List ReferenceMatch → List Span
  | last, [] => [⟨last, t.text.utf8ByteSize⟩]
  | last, m :: ms => ⟨last, m.span.first⟩ :: m.span :: cuts t m.span.last ms

/-- Every cut is between characters of the template. -/
theorem Reads.exists_slice?_of_mem_cuts
    (h : Reads cs pieces)
    (hcs : AsciiDigits cs)
    (htext : t.text = front ++ String.ofList cs) :
    ∀ cut ∈ t.cuts front.utf8ByteSize (references front.utf8ByteSize cs),
      ∃ part, Text.slice? t.text cut.first cut.last = some part := by
  induction h generalizing front with
  | last hnone =>
      rw [references_of_find?_eq_none (find?_eq_none _ hcs hnone), cuts, List.forall_mem_singleton,
        htext]
      exact ⟨_, Text.slice?_append_right front _⟩
  | @next before cs rest r pieces hbefore hr hrest ih =>
      have hparts := text_eq_of_opens hr htext
      obtain ⟨hcopied, hreference⟩ := slice?_parts hparts
      have hlast : front.utf8ByteSize + (String.ofList before).utf8ByteSize +
          (String.ofList r.written).utf8ByteSize =
          (front ++ String.ofList before ++ String.ofList r.written).utf8ByteSize := by
        rw [String.utf8ByteSize_append, String.utf8ByteSize_append]
      rw [references_of_opens hcs hbefore hr, cuts, List.forall_mem_cons, List.forall_mem_cons,
        span_found]
      refine ⟨⟨_, hcopied⟩, ⟨_, hreference⟩, ?_⟩
      rw [hlast]
      exact ih (hcs.of_append.behind hr) (by simp [hparts, String.append_assoc])

end Loop

theorem refers_iff
    {t : NameTemplate}
    {pieces : List TemplatePiece}
    (h : Reads t.text.toList pieces)
    (hascii : AsciiDigits t.text.toList) :
    t.refers = true ↔ ∃ r, .reference r ∈ pieces := by
  unfold refers
  generalize t.text.toList = cs at h hascii
  cases h with
  | last hnone =>
      simp [find?_eq_none 0 hascii hnone]
  | next hbefore hr hrest =>
      simp [find?_of_opens 0 hascii hbefore hr]

/-- Returning a template without references as it is agrees with the loop. -/
theorem resolve_eq_finish
    (t : NameTemplate)
    (line : String)
    (groups : Groups) :
    t.resolve line groups =
      ((references 0 t.text.toList).foldl (Expansion.insert t line groups) ⟨"", 0⟩).finish t := by
  unfold resolve
  split
  · rfl
  · rename_i hrefers
    have hnone : find? 0 t.text.toList = none := by
      simpa [refers] using hrefers
    have hrest := Text.sliceFrom_append "" t.text
    rw [String.empty_append] at hrest
    rw [references_of_find?_eq_none hnone, List.foldl_nil, Expansion.finish, String.empty_append]
    exact hrest.symm

/-- A template is read in one way, as literal text and references. The name for any match is its
pieces in their order: literal text as it stands, and for each reference the text of its group.
What is inserted does not change the reading, so it is not looked at again. The name refers to
groups exactly if there is a reference; otherwise it is returned as it is. Groups are numbered by
machine words, so there are no more of them than numbers that can be read. -/
theorem resolve_of_reading
    (t : NameTemplate)
    (hascii : AsciiDigits t.text.toList) :
    ∃ pieces,
      Reads t.text.toList pieces ∧
      (∀ other, Reads t.text.toList other → other = pieces) ∧
      (∀ line groups, groups.length ≤ Text.Decimal.indexBound →
        t.resolve line groups = String.join (pieces.map (TemplatePiece.text line groups))) ∧
      (t.refers = true ↔ ∃ r, .reference r ∈ pieces) ∧
      ((∀ r, .reference r ∉ pieces) → ∀ line groups, t.resolve line groups = t.text) ∧
      ∀ cut ∈ t.cuts 0 (references 0 t.text.toList),
        ∃ part, Text.slice? t.text cut.first cut.last = some part := by
  obtain ⟨pieces, hpieces⟩ := exists_reads t.text.toList
  have hrefers := refers_iff hpieces hascii
  have htext : t.text = "" ++ String.ofList t.text.toList := by
    rw [String.empty_append, String.ofList_toList]
  refine ⟨pieces, hpieces, fun other hother => hother.eq hascii hpieces, ?_, hrefers, ?_, ?_⟩
  · intro line groups hgroups
    rw [resolve_eq_finish, ← String.empty_append (s := String.join _)]
    exact hpieces.finish_foldl_references hascii hgroups htext ""
  · intro hnone line groups
    refine if_neg fun h => ?_
    obtain ⟨r, hr⟩ := hrefers.mp h
    exact hnone r hr
  · exact hpieces.exists_slice?_of_mem_cuts hascii htext

/-- A template whose references are to a text that looks like a reference, to texts in either
case, to half a character, to a group without a text and to groups that there are not. -/
def sample : NameTemplate :=
  ⟨"a.$1.$\x7b2:/upcase\x7d$3$\x7b4:/downcase\x7d$5|$7$18446744073709551616$x"⟩

/-- Groups in the line `..$0é.ßÄ`. -/
def sampleGroups : Groups :=
  [some ⟨0, 11⟩, some ⟨0, 4⟩, some ⟨6, 9⟩, some ⟨5, 6⟩, some ⟨9, 11⟩, none]

theorem resolve_of_reading_sample :
    AsciiDigits sample.text.toList ∧ sampleGroups.length ≤ Text.Decimal.indexBound ∧
      ∃ pieces, Reads sample.text.toList pieces ∧
        sample.resolve "..$0é.ßÄ" sampleGroups =
          String.join (pieces.map (TemplatePiece.text "..$0é.ßÄ" sampleGroups)) ∧
        sample.resolve "..$0é.ßÄ" sampleGroups = "a.$0.SSä|$7$18446744073709551616$x" := by
  have hascii : AsciiDigits sample.text.toList := by
    decide +kernel
  have hgroups : sampleGroups.length ≤ Text.Decimal.indexBound := by
    decide
  obtain ⟨pieces, hpieces, -, hresolve, -⟩ := resolve_of_reading sample hascii
  exact ⟨hascii, hgroups, pieces, hpieces, hresolve _ _ hgroups, by decide +kernel⟩

end NameTemplate

end LineScopes
