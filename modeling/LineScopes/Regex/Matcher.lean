import LineScopes.Regex.Tree
import LineScopes.Text.Span

/-!
# Backtracking matcher

Expressions are tried from left to right with the first alternative first; when what follows
fails, the latest choice is taken back. What follows is a function of the state, so a matcher
runs by recursion on the expression. Loops end after an empty round, so they are bounded by the
number of bytes left.

**Main definitions.** `MatchState`, `Regex.run`, `Regex.matchAt`.
-/

namespace LineScopes
namespace Regex

/-- How far a match has come. -/
structure MatchState where
  pos : Nat
  /-- The spans of groups, the newest first. -/
  groups : List (Nat × Span)
  /-- Where the match starts if not where it was tried. -/
  keep : Option Nat
deriving Repr, Inhabited

/-- What is tried after an expression. -/
abbrev Continuation := MatchState → Option MatchState

/-- Whether the character at an offset belongs to a word. -/
def wordAt (text : String) (n : Nat) : Bool :=
  ((Text.charAt? text n).map Unicode.isWord).getD false

/-- Whether the character before an offset belongs to a word. -/
def wordBefore (text : String) (n : Nat) : Bool :=
  ((Text.charBefore? text n).map Unicode.isWord).getD false

/-- Whether an assertion holds at an offset. -/
def Assertion.holds
    (text : String)
    (searchStart n : Nat) : Assertion → Bool
  | lineStart =>
    n == 0 || (Text.charBefore? text n == some '\n' && n < text.utf8ByteSize)
  | lineEnd => n == text.utf8ByteSize || Text.charAt? text n == some '\n'
  | textStart => n == 0
  | textEnd => n == text.utf8ByteSize
  | lastLineEnd =>
    n == text.utf8ByteSize ||
      (Text.charAt? text n == some '\n' && n + 1 == text.utf8ByteSize)
  | .searchStart => n == searchStart
  | wordBoundary => wordBefore text n != wordAt text n
  | noWordBoundary => wordBefore text n == wordAt text n

/-- Takes one character that passes a test. -/
def step
    (text : String)
    (test : Char → Bool)
    (k : Continuation)
    (st : MatchState) : Option MatchState :=
  match Text.charAt? text st.pos with
  | some c => if test c then k { st with pos := st.pos + c.utf8Size } else none
  | none => none

/-- The offset behind a list of characters, if the text goes on with them. -/
def afterChars
    (text : String)
    (same : Char → Char → Bool) : List Char → Nat → Option Nat
  | [], n => some n
  | c :: cs, n =>
    match Text.charAt? text n with
    | some d => if same c d then afterChars text same cs (n + d.utf8Size) else none
    | none => none

/-- The offsets reached by taking 1, 2, … characters that pass a test, the last one first. -/
def advances
    (text : String)
    (test : Char → Bool) : (bound : Nat) → (n : Nat) → (reached : List Nat) → List Nat
  | 0, _, reached => reached
  | bound + 1, n, reached =>
    match Text.charAt? text n with
    | some c =>
      if test c then
        let next := n + c.utf8Size
        advances text test bound next (next :: reached)
      else
        reached
    | none => reached

/-- Repeats one character: the numbers of rounds are tried in the order of the greed. -/
def repeatSingle
    (text : String)
    (test : Char → Bool)
    (min : Nat)
    (max : Option Nat)
    (greed : Greed)
    (k : Continuation)
    (st : MatchState) : Option MatchState :=
  let bound := max.getD (text.utf8ByteSize - st.pos)
  let reached := advances text test bound st.pos [st.pos]
  let allowed := reached.take (reached.length - min)
  let place := fun n => { st with pos := n }
  match greed with
  | .greedy => allowed.findSome? fun n => k (place n)
  | .lazy => allowed.reverse.findSome? fun n => k (place n)
  | .possessive => allowed.head?.bind fun n => k (place n)

/-- Repeats a body exactly `n` times. -/
def times
    (body : Continuation → Continuation) : (n : Nat) → Continuation → Continuation
  | 0, k => k
  | n + 1, k => body (times body n k)

/-- Repeats a body up to `bound` times, as often as possible first. An empty round ends it. -/
def upToGreedy
    (body : Continuation → Continuation) : (bound : Nat) → Continuation → Continuation
  | 0, k => k
  | bound + 1, k => fun st =>
    match body (fun st' =>
        if st'.pos = st.pos then k st' else upToGreedy body bound k st') st with
    | some r => some r
    | none => k st

/-- Repeats a body up to `bound` times, as seldom as possible first. An empty round ends it. -/
def upToLazy
    (body : Continuation → Continuation) : (bound : Nat) → Continuation → Continuation
  | 0, k => k
  | bound + 1, k => fun st =>
    match k st with
    | some r => some r
    | none =>
      body (fun st' =>
        if st'.pos = st.pos then k st' else upToLazy body bound k st') st

/-- The spans a text position may have been reached from: the offsets up to `n`, nearest first. -/
def startsBefore
    (text : String) : (bound : Nat) → (n : Nat) → List Nat
  | 0, n => [n]
  | bound + 1, n =>
    match Text.charBefore? text n with
    | some c => n :: startsBefore text bound (n - c.utf8Size)
    | none => [n]

/-- Runs an expression, then what follows it. -/
def run
    (text : String)
    (searchStart : Nat) : Regex → Continuation → Continuation
  | empty, k => k
  | char c anyCase, k => step text (if anyCase then sameLetter c else (· == c)) k
  | set members anyCase, k =>
    step text (if anyCase then members.containsAnyCase else members.contains) k
  | any newline, k => step text (fun c => newline || c != '\n') k
  | assert a, k => fun st => if a.holds text searchStart st.pos then k st else none
  | seq a b, k => run text searchStart a (run text searchStart b k)
  | alt a b, k => fun st =>
    match run text searchStart a k st with
    | some r => some r
    | none => run text searchStart b k st
  | group number body, k => fun st =>
    run text searchStart body
      (fun st' => k { st' with groups := (number, ⟨st.pos, st'.pos⟩) :: st'.groups }) st
  | backReference numbers anyCase, k => fun st =>
    match numbers.filterMap (st.groups.lookup ·) with
    | [] => none
    | spans =>
      let same := if anyCase then sameLetter else (· == ·)
      match spans.findSome? fun s =>
          afterChars text same (Text.slice text s.first s.last).toList st.pos with
      | some n => k { st with pos := n }
      | none => none
  | loop min max greed body, k => fun st =>
    match body.single? with
    | some test => repeatSingle text test min max greed k st
    | none =>
      let round := run text searchStart body
      let extra := match max with
        | some m => m - min
        | none => text.utf8ByteSize + 1
      match greed with
      | .greedy => times round min (upToGreedy round extra k) st
      | .lazy => times round min (upToLazy round extra k) st
      | .possessive => (times round min (upToGreedy round extra some) st).bind k
  | atomic body, k => fun st => (run text searchStart body some st).bind k
  | lookahead negated body, k => fun st =>
    match run text searchStart body some st, negated with
    | some st', false => k { st' with pos := st.pos }
    | none, true => k st
    | _, _ => none
  | lookbehind negated body, k => fun st =>
    let ends := fun st' : MatchState => if st'.pos = st.pos then some st' else none
    let found := (startsBefore text st.pos st.pos).findSome? fun n =>
      run text searchStart body ends { st with pos := n }
    match found, negated with
    | some st', false => k { st' with pos := st.pos }
    | none, true => k st
    | _, _ => none
  | keep, k => fun st => k { st with keep := some st.pos }

/-- Tries an expression with `count` groups at one offset. -/
def matchAt
    (r : Regex)
    (count : Nat)
    (text : String)
    (searchStart n : Nat) : Option Groups :=
  (run text searchStart r some ⟨n, [], none⟩).map fun st =>
    some ⟨st.keep.getD n, st.pos⟩ ::
      (List.range count).map fun i => st.groups.lookup (i + 1)

end Regex
end LineScopes
