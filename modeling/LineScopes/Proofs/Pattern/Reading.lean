import LineScopes.Pattern.Source
import Mathlib.Data.List.TakeWhile

/-!
# The reading of a pattern

A pattern is read from left to right: a backslash and the character behind it belong together, and
if that is a digit, so do all digits behind it. Every pass over a pattern has to keep to this
reading, or a backslash that is escaped itself would escape what follows it.

**Main definitions.** `PatternPart`, `PatternPart.read`, `PatternPart.write`.

**Main statements.** `write_read`: a reading loses nothing. `byParts`: induction along a reading.
`read_replaceEnd`, `disableAnchors_eq`, `anchored_iff`: the passes that keep to it.
-/

namespace LineScopes

/-- A part of a pattern. -/
inductive PatternPart where
  | single (c : Char)
  /-- A backslash with the letter that it escapes. -/
  | pair (letter : Char)
  /-- A backslash with the number of a group. -/
  | reference (digits : List Char)
  /-- A backslash with nothing behind it. -/
  | lone
deriving DecidableEq, Repr

namespace PatternPart

/-- The characters of a part. -/
def chars : PatternPart → List Char
  | single c => [c]
  | pair c => ['\\', c]
  | reference digits => '\\' :: digits
  | lone => ['\\']

/-- The characters of some parts. -/
def write (parts : List PatternPart) : List Char :=
  parts.flatMap chars

/-- The parts of a pattern. -/
def read : List Char → List PatternPart
  | [] => []
  | ['\\'] => [lone]
  | '\\' :: c :: rest =>
    if c.isDigit then
      reference (c :: rest.takeWhile Char.isDigit) :: read (rest.dropWhile Char.isDigit)
    else
      pair c :: read rest
  | c :: rest => single c :: read rest
termination_by cs => cs.length
decreasing_by
  · have hle := (List.dropWhile_sublist Char.isDigit (l := rest)).length_le
    simp only [List.length_cons]
    omega
  · simp only [List.length_cons]
    omega
  · simp only [List.length_cons]
    omega

/-- The characters do not begin with a digit. -/
def NoDigit (cs : List Char) : Prop :=
  ∀ c ∈ cs.head?, c.isDigit = false

@[simp] theorem write_nil :
    write [] = [] := by
  rfl

@[simp] theorem write_cons
    (part : PatternPart)
    (parts : List PatternPart) :
    write (part :: parts) = part.chars ++ write parts := by
  rfl

@[simp] theorem read_nil :
    read [] = [] := by
  rw [read]

@[simp] theorem read_lone :
    read ['\\'] = [lone] := by
  rw [read]

section Digits

variable {c : Char} {digits cs : List Char}

theorem ne_of_isDigit
    {d : Char}
    (hc : c.isDigit = true)
    (hd : d.isDigit = false) :
    c ≠ d := by
  rintro rfl
  exact Bool.noConfusion (hc.symm.trans hd)

theorem takeWhile_digits
    (hdigits : ∀ c ∈ digits, c.isDigit = true)
    (hcs : NoDigit cs) :
    (digits ++ cs).takeWhile Char.isDigit = digits := by
  rw [List.takeWhile_append_of_pos hdigits]
  cases cs with
  | nil =>
      simp
  | cons c cs =>
      simp [hcs c rfl]

theorem dropWhile_digits
    (hdigits : ∀ c ∈ digits, c.isDigit = true)
    (hcs : NoDigit cs) :
    (digits ++ cs).dropWhile Char.isDigit = cs := by
  rw [List.dropWhile_append_of_pos hdigits]
  cases cs with
  | nil =>
      rfl
  | cons c cs =>
      simp [hcs c rfl]

theorem noDigit_cons
    (hc : c.isDigit = false)
    (cs : List Char) :
    NoDigit (c :: cs) := by
  rintro _ ⟨⟩
  exact hc

theorem noDigit_dropWhile
    (cs : List Char) :
    NoDigit (cs.dropWhile Char.isDigit) := by
  intro c hc
  have hhead := List.head?_dropWhile_not Char.isDigit cs
  rw [Option.mem_def.mp hc] at hhead
  simpa using hhead

theorem read_single
    (hc : c ≠ '\\')
    (cs : List Char) :
    read (c :: cs) = single c :: read cs := by
  rw [read]
  · rintro rfl
    exact absurd rfl hc
  · rintro _ _ rfl
    exact absurd rfl hc

theorem read_pair
    (hc : c.isDigit = false)
    (cs : List Char) :
    read ('\\' :: c :: cs) = pair c :: read cs := by
  rw [read, if_neg (by simp [hc])]

theorem read_reference
    (hc : c.isDigit = true)
    (hdigits : ∀ c ∈ digits, c.isDigit = true)
    (hcs : NoDigit cs) :
    read ('\\' :: c :: (digits ++ cs)) = reference (c :: digits) :: read cs := by
  rw [read, if_pos hc, takeWhile_digits hdigits hcs, dropWhile_digits hdigits hcs]

end Digits

/-- Induction along the reading of a pattern. -/
@[elab_as_elim]
theorem byParts
    {motive : List Char → Prop}
    (nil : motive [])
    (lone : motive ['\\'])
    (reference : ∀ c digits rest, c.isDigit = true → (∀ d ∈ digits, d.isDigit = true) →
      NoDigit rest → motive rest → motive ('\\' :: c :: (digits ++ rest)))
    (pair : ∀ c rest, c.isDigit = false → motive rest → motive ('\\' :: c :: rest))
    (single : ∀ c rest, c ≠ '\\' → motive rest → motive (c :: rest))
    (cs : List Char) :
    motive cs := by
  induction cs using read.induct with
  | case1 =>
      exact nil
  | case2 =>
      exact lone
  | case3 c rest hc ih =>
      have hdigits : ∀ d ∈ rest.takeWhile Char.isDigit, d.isDigit = true :=
        fun d hd => List.mem_takeWhile_imp hd
      have hall := reference c _ _ hc hdigits (noDigit_dropWhile rest) ih
      rwa [List.takeWhile_append_dropWhile] at hall
  | case4 c rest hc ih =>
      exact pair c rest (by simpa using hc) ih
  | case5 c rest hlone hpair ih =>
      refine single c rest ?_ ih
      rintro rfl
      cases rest with
      | nil =>
          exact hlone rfl rfl
      | cons d rest =>
          exact hpair d rest rfl rfl

/-- The characters of the parts are those that were read. -/
theorem write_read
    (cs : List Char) :
    write (read cs) = cs := by
  induction cs using byParts with
  | nil =>
      simp
  | lone =>
      simp [chars]
  | reference c digits rest hc hdigits hrest ih =>
      rw [read_reference hc hdigits hrest, write_cons, ih]
      rfl
  | pair c rest hc ih =>
      rw [read_pair hc, write_cons, ih]
      rfl
  | single c rest hc ih =>
      rw [read_single hc, write_cons, ih]
      rfl

/-- Behind an escaped backslash, digits are no reference. -/
example :
    read ['\\', '\\', '1', '\\', '1', '2'] = [pair '\\', single '1', reference ['1', '2']] := by
  decide +kernel

/-- A part that is read in the same way whatever follows it. -/
def Solid : PatternPart → Prop
  | single c => c ≠ '\\'
  | pair c => c.isDigit = false
  | reference _ => False
  | lone => False

theorem read_write_append
    {parts : List PatternPart}
    (h : ∀ part ∈ parts, part.Solid)
    (cs : List Char) :
    read (write parts ++ cs) = parts ++ read cs := by
  induction parts with
  | nil =>
      rfl
  | cons part parts ih =>
      have hrest := ih fun q hq => h q (List.mem_cons_of_mem part hq)
      have hpart := h part List.mem_cons_self
      cases part with
      | single c =>
          exact (read_single hpart _).trans (congrArg _ hrest)
      | pair c =>
          exact (read_pair hpart _).trans (congrArg _ hrest)
      | reference digits =>
          exact absurd hpart id
      | lone =>
          exact absurd hpart id

end PatternPart

namespace PatternSource

open PatternPart

section Passes

variable {c : Char} {digits : List Char}

/-- A pass that keeps the characters outside of pairs keeps digits. -/
theorem pass_digits
    {pass : List Char → List Char}
    (hpass : ∀ c cs, c ≠ '\\' → pass (c :: cs) = c :: pass cs)
    (hdigits : ∀ c ∈ digits, c.isDigit = true)
    (cs : List Char) :
    pass (digits ++ cs) = digits ++ pass cs := by
  induction digits with
  | nil =>
      rfl
  | cons c digits ih =>
      have hc : c ≠ '\\' := ne_of_isDigit (hdigits c List.mem_cons_self) (by decide)
      rw [List.cons_append, hpass c _ hc, ih fun d hd => hdigits d (List.mem_cons_of_mem c hd)]
      rfl

theorem replaceEnd_single
    (c : Char)
    (cs : List Char)
    (hc : c ≠ '\\') :
    replaceEnd (c :: cs) = c :: replaceEnd cs := by
  rw [replaceEnd]
  · rintro rfl
    exact absurd rfl hc
  · rintro _ _ rfl
    exact absurd rfl hc

theorem replaceEnd_pair
    (hc : c ≠ 'z')
    (cs : List Char) :
    replaceEnd ('\\' :: c :: cs) = '\\' :: c :: replaceEnd cs := by
  rw [replaceEnd, if_neg hc]

theorem noDigit_replaceEnd
    {cs : List Char}
    (h : NoDigit cs) :
    NoDigit (replaceEnd cs) := by
  cases cs with
  | nil =>
      exact h
  | cons c cs =>
      by_cases hc : c = '\\'
      · subst hc
        cases cs with
        | nil =>
            exact h
        | cons d cs =>
            by_cases hd : d = 'z'
            · subst hd
              rintro _ ⟨⟩
              decide
            · rw [replaceEnd_pair hd]
              exact h
      · rw [replaceEnd_single c cs hc]
        exact h

/-- The parts for the end of a line. -/
def endParts : List PatternPart :=
  [.single '$', .single '(', .single '?', .single '!', .pair 'n', .single ')',
    .single '(', .single '?', .single '<', .single '!', .pair 'n', .single ')']

theorem write_endParts :
    write endParts = lineEnd.toList := by
  decide

theorem solid_endParts :
    ∀ part ∈ endParts, part.Solid := by
  simp [endParts, Solid]

theorem read_lineEnd_append
    (cs : List Char) :
    read (lineEnd.toList ++ cs) = endParts ++ read cs := by
  rw [← write_endParts, read_write_append solid_endParts]

/-- What a part becomes when the ends of the text are rewritten. -/
def ended (part : PatternPart) : List PatternPart :=
  if part = .pair 'z' then endParts else [part]

/-- The rewritten pattern is read like the pattern. -/
theorem read_replaceEnd
    (cs : List Char) :
    read (replaceEnd cs) = (read cs).flatMap ended := by
  induction cs using byParts with
  | nil =>
      simp [replaceEnd]
  | lone =>
      simp [replaceEnd, ended]
  | reference c digits rest hc hdigits hrest ih =>
      have hz : c ≠ 'z' := ne_of_isDigit hc (by decide)
      rw [replaceEnd_pair hz, pass_digits replaceEnd_single hdigits,
        read_reference hc hdigits (noDigit_replaceEnd hrest), read_reference hc hdigits hrest, ih]
      simp [ended]
  | pair c rest hc ih =>
      rw [read_pair hc, List.flatMap_cons, ← ih]
      by_cases hz : c = 'z'
      · subst hz
        rw [replaceEnd, if_pos rfl, read_lineEnd_append]
        rfl
      · rw [replaceEnd_pair hz, read_pair hc]
        simp [ended, hz]
  | single c rest hc ih =>
      rw [replaceEnd_single c rest hc, read_single hc, read_single hc, List.flatMap_cons, ih]
      rfl

theorem flatMap_ended
    {parts : List PatternPart}
    (h : .pair 'z' ∉ parts) :
    parts.flatMap ended = parts := by
  induction parts with
  | nil =>
      rfl
  | cons part parts ih =>
      obtain ⟨hpart, hparts⟩ := not_or.mp (mt List.mem_cons.mpr h)
      rw [List.flatMap_cons, ih hparts, ended, if_neg (Ne.symm hpart)]
      rfl

/-- A pattern without ends of the text is not rewritten. -/
theorem replaceEnd_of_not_mem
    {cs : List Char}
    (h : .pair 'z' ∉ read cs) :
    replaceEnd cs = cs :=
  calc replaceEnd cs
      = write (read (replaceEnd cs)) := (write_read _).symm
    _ = write (read cs) := by rw [read_replaceEnd, flatMap_ended h]
    _ = cs := write_read cs

theorem mem_ended_iff
    {letter : Char}
    (hn : letter ≠ 'n')
    (part : PatternPart) :
    .pair letter ∈ ended part ↔ part = .pair letter ∧ letter ≠ 'z' := by
  unfold ended
  split
  · rename_i hz
    subst hz
    simp only [endParts, List.mem_cons, PatternPart.pair.injEq]
    grind
  · rename_i hz
    rw [List.mem_singleton]
    grind

/-- Rewriting removes the ends of the text and keeps the anchors. -/
theorem pair_mem_read_replaceEnd_iff
    {letter : Char}
    (hn : letter ≠ 'n')
    (cs : List Char) :
    .pair letter ∈ read (replaceEnd cs) ↔ .pair letter ∈ read cs ∧ letter ≠ 'z' := by
  rw [read_replaceEnd, List.mem_flatMap]
  constructor
  · rintro ⟨part, hpart, hended⟩
    obtain ⟨rfl, hz⟩ := (mem_ended_iff hn part).mp hended
    exact ⟨hpart, hz⟩
  · rintro ⟨hpart, hz⟩
    exact ⟨_, hpart, (mem_ended_iff hn _).mpr ⟨rfl, hz⟩⟩

theorem toList_ofPattern
    (pattern : String) :
    (ofPattern pattern).text.toList = replaceEnd pattern.toList :=
  String.toList_ofList

/-- A prepared pattern has no ends of the text. -/
theorem end_not_mem_read_ofPattern
    (pattern : String) :
    .pair 'z' ∉ read (ofPattern pattern).text.toList := by
  rw [toList_ofPattern, pair_mem_read_replaceEnd_iff (by decide)]
  exact fun h => h.2 rfl

theorem anchorLetter_of_isDigit
    (a : Anchors)
    (hc : c.isDigit = true) :
    anchorLetter a c = c := by
  have hA : c ≠ 'A' := ne_of_isDigit hc (by decide)
  have hG : c ≠ 'G' := ne_of_isDigit hc (by decide)
  simp [anchorLetter, hA, hG]

theorem disableAnchors_single
    (a : Anchors)
    (c : Char)
    (cs : List Char)
    (hc : c ≠ '\\') :
    disableAnchors a (c :: cs) = c :: disableAnchors a cs := by
  rw [disableAnchors]
  · rintro rfl
    exact absurd rfl hc
  · rintro _ _ rfl
    exact absurd rfl hc

/-- What a part becomes under the given anchors. -/
def disabledPart
    (a : Anchors) : PatternPart → PatternPart
  | .pair c => .pair (anchorLetter a c)
  | part => part

/-- Anchors are disabled pair by pair. -/
theorem disableAnchors_eq
    (a : Anchors)
    (cs : List Char) :
    disableAnchors a cs = write ((read cs).map (disabledPart a)) := by
  induction cs using byParts with
  | nil =>
      simp [disableAnchors]
  | lone =>
      simp [disableAnchors, disabledPart, chars]
  | reference c digits rest hc hdigits hrest ih =>
      rw [disableAnchors, pass_digits (disableAnchors_single a) hdigits,
        anchorLetter_of_isDigit a hc, read_reference hc hdigits hrest, ih]
      rfl
  | pair c rest hc ih =>
      rw [disableAnchors, read_pair hc, ih]
      rfl
  | single c rest hc ih =>
      rw [disableAnchors_single a c rest hc, read_single hc, ih]
      rfl

theorem anchored_single
    (hc : c ≠ '\\')
    (cs : List Char) :
    anchored (c :: cs) = anchored cs := by
  rw [anchored]
  · rintro rfl
    exact absurd rfl hc
  · rintro _ _ rfl
    exact absurd rfl hc

theorem anchored_digits
    (hdigits : ∀ c ∈ digits, c.isDigit = true)
    (cs : List Char) :
    anchored (digits ++ cs) = anchored cs := by
  induction digits with
  | nil =>
      rfl
  | cons c digits ih =>
      have hc : c ≠ '\\' := ne_of_isDigit (hdigits c List.mem_cons_self) (by decide)
      rw [List.cons_append, anchored_single hc,
        ih fun d hd => hdigits d (List.mem_cons_of_mem c hd)]

/-- The anchors of a pattern are pairs. -/
theorem anchored_iff
    (cs : List Char) :
    anchored cs = true ↔ .pair 'A' ∈ read cs ∨ .pair 'G' ∈ read cs := by
  induction cs using byParts with
  | nil =>
      simp [anchored]
  | lone =>
      simp [anchored]
  | reference c digits rest hc hdigits hrest ih =>
      have hA : c ≠ 'A' := ne_of_isDigit hc (by decide)
      have hG : c ≠ 'G' := ne_of_isDigit hc (by decide)
      rw [anchored, anchored_digits hdigits, read_reference hc hdigits hrest]
      simp [hA, hG, ih]
  | pair c rest hc ih =>
      rw [anchored, read_pair hc]
      simp only [Bool.or_eq_true, beq_iff_eq, ih, List.mem_cons, PatternPart.pair.injEq]
      grind
  | single c rest hc ih =>
      rw [anchored_single hc, read_single hc, ih]
      simp

end Passes

end PatternSource

end LineScopes
