import LineScopes.Proofs.Selector.Grammar

/-!
# Reading what the grammar derives

The readers of operands, sequences and groups read every derivation up to its end. What follows an
operand must not take its last run of names any further, and what follows a sequence must not start
another operand.

**Main definitions.** `readOperand`, `readSequence`, `readBody`: what is read, with the tokens that
are left. `Stops`: no operand starts here.

**Main statements.** `Operand.reads`, `Sequence.reads`, `Choice.reads`.
-/

namespace LineScopes
namespace Selector

section Equations

/-- What is read of an operand, with the tokens after it. -/
def readOperand (ts : List Token) : Except Fault (Option (Selector × List Token)) :=
  (operand ts).map (Option.map fun p => (p.1, p.2.val))

/-- What is read of a sequence, with the tokens after it. -/
def readSequence (ts : List Token) : Except Fault (List Selector × List Token) :=
  (sequence ts).map fun p => (p.1, p.2.val)

/-- What is read of the inside of a group, with the tokens after it. -/
def readBody (ts : List Token) : Except Fault (List Selector × List Token) :=
  (groupBody ts).map fun p => (p.1, p.2.val)

/-- A sequence is one part of what is around it, unless it is empty. -/
def partOf (parts : List Selector) : List Selector :=
  if parts.isEmpty then [] else [allOf parts]

theorem partOf_of_ne_nil
    {parts : List Selector}
    (h : parts ≠ []) :
    partOf parts = [allOf parts] := by
  simp [partOf, h]

theorem readOperand_nil :
    readOperand [] = .ok none := by
  rw [readOperand, operand]
  rfl

theorem readOperand_minus (rest : List Token) :
    readOperand (.minus :: rest) = (readOperand rest).bind fun
      | some (s, r) => .ok (some (.not s, r))
      | none => .error .danglingNegation := by
  rw [readOperand, readOperand, operand]
  cases operand rest with
  | error fault =>
      rfl
  | ok found =>
      cases found <;> rfl

theorem readOperand_lparen (rest : List Token) :
    readOperand (.lparen :: rest) = (readBody rest).bind fun
      | (parts, .rparen :: r) =>
        if parts.isEmpty then .error .emptyGroup else .ok (some (anyOf parts, r))
      | _ => .error .unclosedGroup := by
  rw [readOperand, readBody, operand]
  cases groupBody rest with
  | error fault =>
      rfl
  | ok found =>
      obtain ⟨parts, ⟨r, hr⟩⟩ := found
      cases r with
      | nil =>
          rfl
      | cons t r =>
          cases t with
          | rparen =>
              cases parts <;> rfl
          | _ =>
              rfl

theorem readOperand_of_name?
    {t : Token}
    {n : String}
    (h : t.name? = some n)
    (rest : List Token) :
    readOperand (t :: rest) =
      .ok (some (.names (n :: leadingNames rest), afterNames rest)) := by
  obtain ⟨rfl, -⟩ := eq_word_of_name? h
  rw [readOperand, operand, h]
  · rfl
  · simp
  · simp

theorem readOperand_of_not
    {t : Token}
    (hminus : t ≠ .minus)
    (hlparen : t ≠ .lparen)
    (hname : t.name? = none)
    (rest : List Token) :
    readOperand (t :: rest) = .ok none := by
  rw [readOperand, operand, hname]
  · rfl
  · exact hminus
  · exact hlparen

theorem readSequence_eq (ts : List Token) :
    readSequence ts = (readOperand ts).bind fun
      | none => .ok ([], ts)
      | some (s, r) => (readSequence r).map fun p => (s :: p.1, p.2) := by
  rw [readSequence, readOperand, sequence]
  cases operand ts with
  | error fault =>
      rfl
  | ok found =>
      cases found with
      | none =>
          rfl
      | some p =>
          obtain ⟨s, ⟨r, hr⟩⟩ := p
          change ((sequence r).bind _).map _ = ((sequence r).map _).map _
          cases sequence r <;> rfl

theorem readBody_eq (ts : List Token) :
    readBody ts = (readSequence ts).bind fun
      | (parts, []) => .ok (partOf parts, [])
      | (parts, t :: rest) =>
        if t.isSeparator then (readBody rest).map fun p => (partOf parts ++ p.1, p.2)
        else .ok (partOf parts, t :: rest) := by
  rw [readBody, readSequence, groupBody]
  cases sequence ts with
  | error fault =>
      rfl
  | ok found =>
      obtain ⟨parts, ⟨r, hr⟩⟩ := found
      cases r with
      | nil =>
          rfl
      | cons t rest =>
          dsimp only [bind, Except.bind, Except.map]
          by_cases hsep : t.isSeparator = true
          · simp only [hsep]
            rw [readBody]
            cases groupBody rest <;> rfl
          · simp only [hsep]
            rfl

end Equations

section Names

variable {ids : List String} {rest : List Token}

/-- A run of names ends where no name follows. -/
theorem leadingNames_append
    (hnames : ∀ i ∈ ids, Token.isName i = true)
    (hrest : ¬ StartsWithName rest) :
    leadingNames (ids.map .word ++ rest) = ids ∧ afterNames (ids.map .word ++ rest) = rest := by
  induction ids with
  | nil =>
      cases rest with
      | nil =>
          exact ⟨rfl, rfl⟩
      | cons t ts =>
          have hname : t.name? = none := by
            simpa [IsName] using hrest
          simp [leadingNames, afterNames, hname]
  | cons i ids ih =>
      obtain ⟨hleading, hafter⟩ := ih fun j hj => hnames j (List.mem_cons_of_mem i hj)
      have hname := name?_word (hnames i List.mem_cons_self)
      simp [leadingNames, afterNames, hname, hleading, hafter]

/-- The leading names are a run of names, and none follows. -/
theorem exists_names (ts : List Token) :
    ts = (leadingNames ts).map .word ++ afterNames ts ∧
      (∀ i ∈ leadingNames ts, Token.isName i = true) ∧ ¬ StartsWithName (afterNames ts) := by
  induction ts with
  | nil =>
      simp [leadingNames, afterNames, not_startsWithName_nil]
  | cons t ts ih =>
      rw [leadingNames, afterNames]
      cases hname : t.name? with
      | none =>
          simp [IsName, hname]
      | some n =>
          obtain ⟨heq, hnames, hrest⟩ := ih
          obtain ⟨rfl, hn⟩ := eq_word_of_name? hname
          refine ⟨?_, ?_, hrest⟩
          · rw [List.map_cons, List.cons_append, ← heq]
          · intro i hi
            rcases List.mem_cons.mp hi with rfl | hi
            · exact hn
            · exact hnames i hi

end Names

section Derivations

/-- No operand starts here. -/
def Stops (ts : List Token) : Prop :=
  ∀ t, ts.head? = some t → t.isSeparator = true ∨ t = .rparen

variable {ts us rest : List Token} {s : Selector} {parts : List Selector}

theorem readOperand_of_stops
    (h : Stops rest) :
    readOperand rest = .ok none := by
  cases rest with
  | nil =>
      exact readOperand_nil
  | cons t ts =>
      have ht := h t rfl
      cases t with
      | minus | lparen | word text =>
          simp [Token.isSeparator] at ht
      | comma | bar | rparen =>
          exact readOperand_of_not (by simp) (by simp) rfl ts

theorem Stops.apart
    (h : Stops rest)
    (ts : List Token) :
    Apart ts rest := by
  rintro - ⟨t, hhead, hname⟩
  rcases h t hhead with hsep | rfl
  · exact not_isName_of_isSeparator hsep hname
  · exact hname rfl

theorem Separators.stops
    (h : Separators ts)
    (hrest : ts = [] → Stops rest) :
    Stops (ts ++ rest) := by
  cases ts with
  | nil =>
      exact hrest rfl
  | cons t ts =>
      intro u hu
      obtain rfl : t = u := by simpa using hu
      exact .inl (h t List.mem_cons_self)

theorem stops_rparen (rest : List Token) :
    Stops (.rparen :: rest) := by
  intro t ht
  obtain rfl : Token.rparen = t := by simpa using ht
  exact .inr rfl

theorem readSequence_of_stops
    (h : Stops rest) :
    readSequence rest = .ok ([], rest) := by
  rw [readSequence_eq, readOperand_of_stops h]
  rfl

/-- Separators at the start of a group are skipped. -/
theorem readBody_separators
    (h : Separators ts)
    (rest : List Token) :
    readBody (ts ++ rest) = readBody rest := by
  induction ts with
  | nil =>
      rfl
  | cons t ts ih =>
      have ht := h t List.mem_cons_self
      have hstops : Stops (t :: ts ++ rest) := by
        intro u hu
        obtain rfl : t = u := by simpa using hu
        exact .inl ht
      rw [readBody_eq, readSequence_of_stops hstops]
      change (if t.isSeparator then (readBody (ts ++ rest)).map _ else _) = _
      rw [if_pos ht, ih fun u hu => h u (List.mem_cons_of_mem t hu)]
      cases readBody rest <;> rfl

/-- A group without a sequence. -/
theorem readBody_rparen (rest : List Token) :
    readBody (.rparen :: rest) = .ok ([], .rparen :: rest) := by
  rw [readBody_eq, readSequence_of_stops (stops_rparen rest)]
  rfl

/-- What stands behind the last sequence of a group. -/
theorem readBody_of_readSequence
    (hts : readSequence (ts ++ us ++ .rparen :: rest) = .ok (parts, us ++ .rparen :: rest))
    (hparts : parts ≠ [])
    (hus : Separators us) :
    readBody (ts ++ us ++ .rparen :: rest) = .ok ([allOf parts], .rparen :: rest) := by
  rw [readBody_eq, hts]
  cases us with
  | nil =>
      rw [← partOf_of_ne_nil hparts]
      rfl
  | cons sep us =>
      change (if sep.isSeparator then (readBody (us ++ .rparen :: rest)).map _ else _) = _
      rw [if_pos (hus sep List.mem_cons_self),
        readBody_separators fun u hu => hus u (List.mem_cons_of_mem sep hu), readBody_rparen,
        partOf_of_ne_nil hparts]
      rfl

/-- What stands behind another sequence of a group. -/
theorem readBody_of_between
    {between : List Token}
    {others : List Selector}
    (hts : readSequence (ts ++ between ++ us) = .ok (parts, between ++ us))
    (hparts : parts ≠ [])
    (hne : between ≠ [])
    (hbetween : Separators between)
    (hus : readBody us = .ok (others, rest)) :
    readBody (ts ++ between ++ us) = .ok (allOf parts :: others, rest) := by
  rw [readBody_eq, hts]
  cases between with
  | nil =>
      exact absurd rfl hne
  | cons sep between =>
      change (if sep.isSeparator then (readBody (between ++ us)).map _ else _) = _
      rw [if_pos (hbetween sep List.mem_cons_self),
        readBody_separators fun u hu => hbetween u (List.mem_cons_of_mem sep hu), hus,
        partOf_of_ne_nil hparts]
      rfl

mutual

/-- An operand is read up to its end, if no run of names goes on behind it. -/
theorem Operand.reads
    {ts : List Token}
    {s : Selector}
    (rest : List Token)
    (hapart : Apart ts rest) :
    Operand ts s → readOperand (ts ++ rest) = .ok (some (s, rest))
  | .names hne hnames => by
      have hrest := hapart (endsInName_names hne hnames)
      obtain ⟨i, ids, rfl⟩ := List.exists_cons_of_ne_nil hne
      have hname := name?_word (hnames i List.mem_cons_self)
      obtain ⟨hleading, hafter⟩ :=
        leadingNames_append (fun j hj => hnames j (List.mem_cons_of_mem i hj)) hrest
      rw [List.map_cons, List.cons_append, readOperand_of_name? hname, hleading, hafter]
  | .negation h => by
      have hread := h.reads rest fun hends => hapart (hends.cons _)
      rw [List.cons_append, readOperand_minus, hread]
      rfl
  | @Operand.group before ts after parts hbefore h hafter => by
      have htokens : .lparen :: (before ++ ts ++ after) ++ [.rparen] ++ rest =
          .lparen :: (before ++ (ts ++ after ++ .rparen :: rest)) := by
        simp
      rw [htokens, readOperand_lparen, readBody_separators hbefore, h.reads after rest hafter]
      change (if parts.isEmpty then _ else _) = _
      rw [if_neg (by simpa using h.parts_ne_nil)]

/-- A sequence is read up to its end, if no operand follows. -/
theorem Sequence.reads
    {ts : List Token}
    {parts : List Selector}
    (rest : List Token)
    (hstops : Stops rest) :
    Sequence ts parts → readSequence (ts ++ rest) = .ok (parts, rest)
  | .last h => by
      rw [readSequence_eq, h.reads rest (hstops.apart _)]
      change (readSequence rest).map _ = _
      rw [readSequence_of_stops hstops]
      rfl
  | @Sequence.cons ts us s parts h hapart hrest => by
      rw [List.append_assoc, readSequence_eq, h.reads _ (hapart.append hrest.ne_nil rest)]
      change (readSequence (us ++ rest)).map _ = _
      rw [hrest.reads rest hstops]
      rfl

/-- The sequences of a group are read up to its closing sign. -/
theorem Choice.reads
    {ts : List Token}
    {parts : List Selector}
    (after rest : List Token)
    (hafter : Separators after) :
    Choice ts parts →
      readBody (ts ++ after ++ .rparen :: rest) = .ok (parts, .rparen :: rest)
  | .last h => by
      have hread := h.reads _ (hafter.stops fun _ => stops_rparen rest)
      rw [← List.append_assoc] at hread
      exact readBody_of_readSequence hread h.parts_ne_nil hafter
  | @Choice.cons ts between us parts others h hne hbetween hrest => by
      have hread := h.reads (between ++ (us ++ after ++ .rparen :: rest))
        (hbetween.stops fun hnil => absurd hnil hne)
      rw [← List.append_assoc] at hread
      have hbody := readBody_of_between hread h.parts_ne_nil hne hbetween
        (hrest.reads after rest hafter)
      simpa only [List.append_assoc] using hbody

end

end Derivations

end Selector
end LineScopes
