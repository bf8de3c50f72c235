import LineScopes.Proofs.Outcome
import LineScopes.Proofs.Selector.Reading
import LineScopes.Selector.Written

/-!
# Selectors that are accepted

What the readers read has a derivation. Each reader calls the others only on what is left of its
tokens, so this is shown for one call at a time. A selector is read one alternative after the other;
it is accepted just if it is written by the grammar, and then it is read as what it is written for.

**Main definitions.** `ReadsOperand`, `ReadsSequence`, `ReadsBody`, `continueWith`.

**Main statements.** `readsSequence`: what is read has a derivation. `Written.reads`: selectors of
the grammar are read. `alternatives_eq_ok_iff`: no others are.
-/

namespace LineScopes
namespace Selector

section Readings

variable {t : Token} {ts rest left : List Token} {s : Selector} {parts others : List Selector}

/-- The tokens before the rest are a sequence, or there is nothing before it. -/
def SequenceBefore (ts rest : List Token) (parts : List Selector) : Prop :=
  ts = rest ∧ parts = [] ∨ ∃ us, ts = us ++ rest ∧ Sequence us parts

/-- The tokens before the rest are sequences with separators around them, or only separators. -/
def BodyBefore (ts rest : List Token) (parts : List Selector) : Prop :=
  ∃ before, Separators before ∧ (ts = before ++ rest ∧ parts = [] ∨
    ∃ us after, ts = before ++ us ++ after ++ rest ∧ Choice us parts ∧ Separators after)

/-- An operand that is read has a derivation, and no run of names goes on behind it. -/
def ReadsOperand (ts : List Token) : Prop :=
  ∀ s rest, readOperand ts = .ok (some (s, rest)) →
    ∃ us, ts = us ++ rest ∧ Operand us s ∧ Apart us rest

/-- Operands that are read have a derivation. -/
def ReadsSequence (ts : List Token) : Prop :=
  ∀ parts rest, readSequence ts = .ok (parts, rest) → SequenceBefore ts rest parts

/-- The sequences of a group that are read have a derivation. -/
def ReadsBody (ts : List Token) : Prop :=
  ∀ parts rest, readBody ts = .ok (parts, rest) → BodyBefore ts rest parts

theorem readsOperand_nil :
    ReadsOperand [] := by
  intro s rest hread
  rw [readOperand_nil] at hread
  cases hread

theorem ReadsOperand.minus
    (h : ReadsOperand ts) :
    ReadsOperand (.minus :: ts) := by
  intro s rest hread
  rw [readOperand_minus] at hread
  obtain ⟨found, hts, hfound⟩ := exists_of_bind_eq_ok hread
  cases found with
  | none =>
      cases hfound
  | some p =>
      obtain ⟨part, left⟩ := p
      cases hfound
      obtain ⟨us, rfl, hus, hapart⟩ := h _ _ hts
      exact ⟨.minus :: us, rfl, .negation hus,
        fun hends => hapart (hends.of_cons (by simp [IsName, Token.name?]))⟩

theorem ReadsBody.lparen
    (h : ReadsBody ts) :
    ReadsOperand (.lparen :: ts) := by
  intro s rest hread
  rw [readOperand_lparen] at hread
  obtain ⟨⟨parts, left⟩, hts, hleft⟩ := exists_of_bind_eq_ok hread
  cases left with
  | nil =>
      cases hleft
  | cons t left =>
      cases t with
      | rparen =>
          obtain ⟨before, hbefore, ⟨-, rfl⟩ | ⟨us, after, rfl, hus, hafter⟩⟩ := h _ _ hts
          · cases hleft
          · change (if parts.isEmpty then _ else _) = _ at hleft
            rw [if_neg (by simpa using hus.parts_ne_nil)] at hleft
            cases hleft
            refine ⟨_, ?_, .group hbefore hus hafter, fun hends => ?_⟩
            · simp
            · have hname := endsInName_append_singleton_iff.mp hends
              exact absurd rfl hname
      | _ =>
          cases hleft

theorem readsOperand_of_not
    (hminus : t ≠ .minus)
    (hlparen : t ≠ .lparen)
    (hname : t.name? = none)
    (ts : List Token) :
    ReadsOperand (t :: ts) := by
  intro s rest hread
  rw [readOperand_of_not hminus hlparen hname] at hread
  cases hread

theorem readsOperand_of_name?
    {n : String}
    (hname : t.name? = some n)
    (ts : List Token) :
    ReadsOperand (t :: ts) := by
  intro s rest hread
  rw [readOperand_of_name? hname] at hread
  cases hread
  obtain ⟨rfl, hn⟩ := eq_word_of_name? hname
  obtain ⟨heq, hnames, hafter⟩ := exists_names ts
  refine ⟨(n :: leadingNames ts).map .word, ?_, ?_, fun _ => hafter⟩
  · rw [List.map_cons, List.cons_append, ← heq]
  · exact .names (List.cons_ne_nil _ _) (List.forall_mem_cons.mpr ⟨hn, hnames⟩)

theorem ReadsOperand.sequence
    (h : ReadsOperand ts)
    (hshorter : ∀ us, us.length < ts.length → ReadsSequence us) :
    ReadsSequence ts := by
  intro parts rest hread
  rw [readSequence_eq] at hread
  obtain ⟨found, hts, hfound⟩ := exists_of_bind_eq_ok hread
  cases found with
  | none =>
      cases hfound
      exact .inl ⟨rfl, rfl⟩
  | some p =>
      obtain ⟨s, left⟩ := p
      obtain ⟨⟨others, left'⟩, hothers, hsame⟩ := exists_of_map_eq_ok hfound
      cases hsame
      obtain ⟨us, rfl, hus, hapart⟩ := h _ _ hts
      have hlength : left.length < (us ++ left).length := by
        have hpos := List.length_pos_iff.mpr hus.ne_nil
        simp only [List.length_append]
        omega
      right
      rcases hshorter left hlength _ _ hothers with ⟨rfl, rfl⟩ | ⟨vs, rfl, hvs⟩
      · exact ⟨us, rfl, .last hus⟩
      · exact ⟨us ++ vs, by rw [List.append_assoc], .cons hus hapart.of_append hvs⟩

/-- A group that ends behind its first sequence. -/
theorem SequenceBefore.body
    (h : SequenceBefore ts rest parts) :
    BodyBefore ts rest (partOf parts) := by
  refine ⟨[], List.forall_mem_nil _, ?_⟩
  rcases h with ⟨rfl, rfl⟩ | ⟨us, rfl, hus⟩
  · exact .inl ⟨rfl, rfl⟩
  · rw [partOf_of_ne_nil hus.parts_ne_nil]
    exact .inr ⟨us, [], by simp, .last hus, List.forall_mem_nil _⟩

/-- A group that goes on behind a separator. -/
theorem SequenceBefore.body_of_separator
    (h : SequenceBefore ts (t :: left) parts)
    (ht : t.isSeparator = true)
    (hleft : BodyBefore left rest others) :
    BodyBefore ts rest (partOf parts ++ others) := by
  obtain ⟨between, hbetween, hleft⟩ := hleft
  have hseps : Separators (t :: between) :=
    List.forall_mem_cons.mpr ⟨ht, hbetween⟩
  rcases h with ⟨rfl, rfl⟩ | ⟨us, rfl, hus⟩
  · -- no sequence has been met, so the separators still stand before the first one
    refine ⟨t :: between, hseps, ?_⟩
    rcases hleft with ⟨rfl, rfl⟩ | ⟨vs, after, rfl, hvs, hafter⟩
    · exact .inl ⟨rfl, rfl⟩
    · exact .inr ⟨vs, after, rfl, hvs, hafter⟩
  · refine ⟨[], List.forall_mem_nil _, .inr ?_⟩
    rw [partOf_of_ne_nil hus.parts_ne_nil]
    rcases hleft with ⟨rfl, rfl⟩ | ⟨vs, after, rfl, hvs, hafter⟩
    · exact ⟨us, t :: between, by simp, .last hus, hseps⟩
    · exact ⟨us ++ t :: between ++ vs, after, by simp,
        .cons hus (List.cons_ne_nil _ _) hseps hvs, hafter⟩

theorem SequenceBefore.length_le
    (h : SequenceBefore ts rest parts) :
    rest.length ≤ ts.length := by
  rcases h with ⟨rfl, -⟩ | ⟨us, rfl, -⟩
  · exact Nat.le_refl _
  · simp only [List.length_append]
    omega

theorem ReadsSequence.body
    (h : ReadsSequence ts)
    (hshorter : ∀ t us, (t :: us).length ≤ ts.length → ReadsBody us) :
    ReadsBody ts := by
  intro parts rest hread
  rw [readBody_eq] at hread
  obtain ⟨⟨first, left⟩, hts, hleft⟩ := exists_of_bind_eq_ok hread
  have hfirst := h _ _ hts
  cases left with
  | nil =>
      cases hleft
      exact hfirst.body
  | cons t left =>
      change (if t.isSeparator then _ else _) = _ at hleft
      by_cases ht : t.isSeparator = true
      · rw [if_pos ht] at hleft
        obtain ⟨⟨others, left'⟩, hothers, hsame⟩ := exists_of_map_eq_ok hleft
        cases hsame
        exact hfirst.body_of_separator ht (hshorter t left hfirst.length_le _ _ hothers)
      · rw [if_neg ht] at hleft
        cases hleft
        exact hfirst.body

/-- The readers call each other only on what is left; so all that they read has a derivation. -/
theorem readsSequence (ts : List Token) :
    ReadsSequence ts :=
  (operand.mutual_induct ReadsOperand ReadsBody ReadsSequence readsOperand_nil
    (fun _ => ReadsOperand.minus) (fun _ => ReadsBody.lparen)
    (fun _ us hminus hlparen hname => readsOperand_of_not hminus hlparen hname us)
    (fun _ us _ _ _ hname => readsOperand_of_name? hname us)
    (fun _ => ReadsSequence.body) (fun _ => ReadsOperand.sequence)).2.2 ts

end Readings

section Alternatives

variable {t : Token} {ts us rest : List Token} {clause : Option Alternative}
variable {alts : List Alternative}

/-- The alternative of a sequence, unless the sequence is empty. -/
def alternativeOf (mark : Option Priority) (parts : List Selector) : List Alternative :=
  if parts.isEmpty then [] else [⟨mark.getD .normal, allOf parts⟩]

/-- Reads on behind an alternative. -/
def continueWith (here : List Alternative) : List Token → Except Fault (List Alternative)
  | [] => .ok here
  | sep :: rest =>
    if sep.isSeparator then (alternatives rest).map (here ++ ·) else .error (.unexpected sep.text)

theorem alternativeOf_of_ne_nil
    {parts : List Selector}
    (h : parts ≠ [])
    (mark : Option Priority) :
    alternativeOf mark parts = [⟨mark.getD .normal, allOf parts⟩] := by
  simp [alternativeOf, h]

theorem alternatives_cons (t : Token) (rest : List Token) :
    alternatives (t :: rest) =
      (readSequence (if (priority? t).isSome then rest else t :: rest)).bind fun p =>
        if p.1.isEmpty && (priority? t).isSome then .error .danglingPriority
        else continueWith (alternativeOf (priority? t) p.1) p.2 := by
  rw [alternatives, readSequence]
  cases sequence (if (priority? t).isSome then rest else t :: rest) with
  | error fault =>
      rfl
  | ok found =>
      obtain ⟨parts, ⟨left, hleft⟩⟩ := found
      dsimp only [bind, Except.bind, Except.map]
      by_cases hmark : (parts.isEmpty && (priority? t).isSome) = true
      · rw [if_pos hmark, if_pos hmark]
        rfl
      · rw [if_neg hmark, if_neg hmark]
        cases left with
        | nil =>
            rfl
        | cons sep left =>
            rw [continueWith]
            by_cases hsep : sep.isSeparator = true
            · simp only [hsep]
              cases alternatives left <;> rfl
            · simp only [hsep]
              rfl

theorem priority?_eq_some
    {p : Priority}
    (h : priority? t = some p) :
    t = .word "L:" ∧ p = .left ∨ t = .word "R:" ∧ p = .right := by
  unfold priority? at h
  split at h <;> simp_all

theorem priority?_eq_none
    (hleft : t ≠ .word "L:")
    (hright : t ≠ .word "R:") :
    priority? t = none := by
  unfold priority?
  split <;> simp_all

/-- A sequence behind a priority mark is read as an alternative. -/
theorem alternatives_of_mark
    {p : Priority}
    {parts : List Selector}
    (ht : priority? t = some p)
    (h : Sequence ts parts)
    (hstops : Stops rest) :
    alternatives (t :: ts ++ rest) = continueWith [⟨p, allOf parts⟩] rest := by
  rw [List.cons_append, alternatives_cons, ht]
  change (readSequence (ts ++ rest)).bind _ = _
  rw [h.reads rest hstops]
  change (if parts.isEmpty && true then _ else _) = _
  rw [if_neg (by simpa using h.parts_ne_nil), alternativeOf_of_ne_nil h.parts_ne_nil]
  rfl

/-- Without a priority mark the first token belongs to the sequence. -/
theorem alternatives_of_no_mark
    (ht : priority? t = none)
    (rest : List Token) :
    alternatives (t :: rest) =
      (readSequence (t :: rest)).bind fun p => continueWith (alternativeOf none p.1) p.2 := by
  rw [alternatives_cons, ht]
  simp

/-- An alternative is read up to its end, if no operand follows. -/
theorem Clause.reads
    (h : Clause ts clause)
    (hstops : Stops rest) :
    alternatives (ts ++ rest) = continueWith clause.toList rest := by
  cases h with
  | empty =>
      cases rest with
      | nil =>
          rw [List.append_nil, alternatives]
          rfl
      | cons sep rest =>
          have hsep : priority? sep = none := by
            rcases hstops sep rfl with hsep | rfl
            · cases sep <;> simp_all [Token.isSeparator, priority?]
            · rfl
          rw [List.nil_append, alternatives_of_no_mark hsep, readSequence_of_stops hstops]
          rfl
  | plain h hleft hright =>
      obtain ⟨t, ts, rfl⟩ := List.exists_cons_of_ne_nil h.ne_nil
      have ht : priority? t = none :=
        priority?_eq_none (fun hmark => hleft (congrArg some hmark))
          fun hmark => hright (congrArg some hmark)
      have hread := h.reads rest hstops
      rw [List.cons_append] at hread ⊢
      rw [alternatives_of_no_mark ht, hread]
      change continueWith (alternativeOf none _) rest = _
      rw [alternativeOf_of_ne_nil h.parts_ne_nil]
      rfl
  | left h =>
      exact alternatives_of_mark rfl h hstops
  | right h =>
      exact alternatives_of_mark rfl h hstops

theorem stops_cons_of_isSeparator
    (h : t.isSeparator = true)
    (rest : List Token) :
    Stops (t :: rest) := by
  intro u hu
  obtain rfl : t = u := by simpa using hu
  exact .inl h

/-- A selector that is written down is read. -/
theorem Written.reads
    (h : Written ts alts) :
    alternatives ts = .ok alts := by
  induction h with
  | last h =>
      have hstops : Stops [] := by
        simp [Stops]
      have hread := h.reads hstops
      rwa [List.append_nil] at hread
  | cons h hsep hrest ih =>
      rw [h.reads (stops_cons_of_isSeparator hsep _), continueWith, if_pos hsep, ih]
      rfl

/-- What is read first is an alternative, and reading goes on behind it. -/
theorem exists_clause_of_alternatives
    (h : alternatives ts = .ok alts) :
    ∃ us clause rest, ts = us ++ rest ∧ Clause us clause ∧
      continueWith clause.toList rest = .ok alts := by
  cases ts with
  | nil =>
      rw [alternatives] at h
      exact ⟨[], none, [], rfl, .empty, h⟩
  | cons t ts =>
      cases ht : priority? t with
      | none =>
          rw [alternatives_of_no_mark ht] at h
          obtain ⟨⟨parts, rest⟩, hread, hgo⟩ := exists_of_bind_eq_ok h
          rcases readsSequence _ _ _ hread with ⟨rfl, rfl⟩ | ⟨us, htokens, hus⟩
          · exact ⟨[], none, _, rfl, .empty, hgo⟩
          · obtain ⟨u, us, rfl⟩ := List.exists_cons_of_ne_nil hus.ne_nil
            obtain ⟨rfl, -⟩ := List.cons.inj htokens
            change continueWith (alternativeOf none parts) rest = _ at hgo
            rw [alternativeOf_of_ne_nil hus.parts_ne_nil] at hgo
            refine ⟨_, _, rest, htokens, .plain hus ?_ ?_, hgo⟩
            · rintro ⟨⟩
              cases ht
            · rintro ⟨⟩
              cases ht
      | some p =>
          rw [alternatives_cons, ht] at h
          obtain ⟨⟨parts, rest⟩, hread, hgo⟩ := exists_of_bind_eq_ok h
          rcases readsSequence _ _ _ hread with ⟨rfl, rfl⟩ | ⟨us, htokens, hus⟩
          · cases hgo
          · change ts = us ++ rest at htokens
            change (if parts.isEmpty && true then _ else _) = _ at hgo
            rw [if_neg (by simpa using hus.parts_ne_nil),
              alternativeOf_of_ne_nil hus.parts_ne_nil] at hgo
            subst htokens
            rcases priority?_eq_some ht with ⟨rfl, rfl⟩ | ⟨rfl, rfl⟩
            · exact ⟨_, _, rest, rfl, .left hus, hgo⟩
            · exact ⟨_, _, rest, rfl, .right hus, hgo⟩

theorem Clause.written_of_continueWith
    (h : Clause us clause)
    (hgo : continueWith clause.toList rest = .ok alts)
    (hrest : ∀ ts others, ts.length < (us ++ rest).length → alternatives ts = .ok others →
      Written ts others) :
    Written (us ++ rest) alts := by
  cases rest with
  | nil =>
      cases hgo
      rw [List.append_nil]
      exact .last h
  | cons sep rest =>
      rw [continueWith] at hgo
      by_cases hsep : sep.isSeparator = true
      · rw [if_pos hsep] at hgo
        obtain ⟨others, hothers, rfl⟩ := exists_of_map_eq_ok hgo
        refine .cons h hsep (hrest rest others ?_ hothers)
        simp only [List.length_append, List.length_cons]
        omega
      · rw [if_neg hsep] at hgo
        cases hgo

/-- A selector that is read is written down. -/
theorem written_of_alternatives
    (h : alternatives ts = .ok alts) :
    Written ts alts := by
  induction hlength : ts.length using Nat.strongRecOn generalizing ts alts with
  | _ n ih =>
      obtain ⟨us, clause, rest, rfl, hclause, hgo⟩ := exists_clause_of_alternatives h
      exact hclause.written_of_continueWith hgo fun vs others hshorter hothers =>
        ih vs.length (hlength ▸ hshorter) hothers rfl

/-- Reading a selector gives just the alternatives that its tokens are written for. -/
theorem alternatives_eq_ok_iff :
    (∀ ts alts, alternatives ts = .ok alts ↔ Written ts alts) ∧
      ∀ text alts, parseSelector text = .ok alts ↔ Written (tokens text) alts := by
  have h : ∀ ts alts, alternatives ts = .ok alts ↔ Written ts alts := fun ts alts =>
    ⟨written_of_alternatives, Written.reads⟩
  refine ⟨h, fun text alts => ?_⟩
  rw [← h, parseSelector, parse]
  cases alternatives (tokens text) <;> simp

end Alternatives

end Selector
end LineScopes
