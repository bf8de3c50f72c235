import LineScopes.Grammar.Document
import LineScopes.Json.Reader
import LineScopes.Json.Record

/-!
# Reading grammar documents

Rules nest, so their reader counts how many containers may still be opened.

**Main definitions.** `readRule`, `RawGrammar.ofJson`, `RawGrammar.parse`.
-/

namespace LineScopes

open Json (Field record optional orDefault readText readList readMembers lastByKey)

/-- The fields of a rule in their declared order. -/
def ruleShape : List Field :=
  [⟨"include", []⟩, ⟨"name", []⟩, ⟨"contentName", []⟩, ⟨"match", []⟩, ⟨"captures", []⟩,
    ⟨"begin", []⟩, ⟨"beginCaptures", []⟩, ⟨"end", []⟩, ⟨"endCaptures", []⟩, ⟨"while", []⟩,
    ⟨"whileCaptures", []⟩, ⟨"patterns", []⟩, ⟨"repository", []⟩, ⟨"applyEndPatternLast", []⟩]

/-- The fields of a grammar in their declared order. -/
def grammarShape : List Field :=
  [⟨"scopeName", []⟩, ⟨"name", []⟩, ⟨"patterns", []⟩, ⟨"repository", []⟩, ⟨"injections", []⟩,
    ⟨"injectionSelector", []⟩, ⟨"fileTypes", []⟩, ⟨"firstLineMatch", []⟩]

/-- Reads a flag, which may be written as a number: every number but zero sets it. -/
def readFlag : Json → Except Error Bool
  | .bool b => .ok b
  | .number n => if n.isTooLarge then .error .badDocument else .ok !n.isZero
  | _ => .error .badDocument

/-- Entries in the order of their keys, the last value of each key. -/
def sortByKey (entries : List (String × RawRule)) : List (String × RawRule) :=
  (lastByKey entries).mergeSort fun a b => (compare a.1 b.1).isLE

mutual

/-- Reads a rule in which `depth` containers may be nested, its own included. -/
def readRule : (depth : Nat) → Json → Except Error RawRule
  | 0, _ => .error .badDocument
  | depth + 1, j => do
    let fields ← record ruleShape j
    return {
      reference := ← optional readText (fields.lookup "include")
      name := ← optional readText (fields.lookup "name")
      contentName := ← optional readText (fields.lookup "contentName")
      matchPattern := ← optional readText (fields.lookup "match")
      captures := ← optional (readCaptures depth) (fields.lookup "captures")
      beginPattern := ← optional readText (fields.lookup "begin")
      beginCaptures := ← optional (readCaptures depth) (fields.lookup "beginCaptures")
      endPattern := ← optional readText (fields.lookup "end")
      endCaptures := ← optional (readCaptures depth) (fields.lookup "endCaptures")
      whilePattern := ← optional readText (fields.lookup "while")
      whileCaptures := ← optional (readCaptures depth) (fields.lookup "whileCaptures")
      patterns := ← optional (readRules depth) (fields.lookup "patterns")
      repository := ← optional (readRepository depth) (fields.lookup "repository")
      endLast := (← optional readFlag (fields.lookup "applyEndPatternLast")).getD false }

/-- Reads a list of rules. -/
def readRules : (depth : Nat) → Json → Except Error (List RawRule)
  | 0, _ => .error .badDocument
  | depth + 1, j => readList (readRule depth) j

/-- Reads rules by capture key. -/
def readCaptures : (depth : Nat) → Json → Except Error Captures
  | 0, _ => .error .badDocument
  | depth + 1, j => sortByKey <$> readMembers (readRule depth) j

/-- Reads rules by name. An entry that is a list of patterns stands for a rule that includes
them. Everything in an entry has to be sound, also what is skipped. -/
def readRepository : (depth : Nat) → Json → Except Error Repository
  | 0, _ => .error .badDocument
  | depth + 1, j =>
    lastByKey <$> readMembers (fun entry =>
      if entry.sound depth then
        match readRules depth entry with
        | .ok rules => .ok { patterns := some rules }
        | .error _ => readRule depth entry
      else
        .error .badDocument) j

end

/-- Reads rules by selector. -/
def readInjections : (depth : Nat) → Json → Except Error (List (String × RawRule))
  | 0, _ => .error .badDocument
  | depth + 1, j => lastByKey <$> readMembers (readRule depth) j

/-- Reads a grammar. -/
def RawGrammar.ofJson (j : Json) : Except Error RawGrammar := do
  let fields ← record grammarShape j
  let depth := Json.depthLimit - 1
  return {
    scopeName := ← orDefault readText "" (fields.lookup "scopeName")
    name := ← optional readText (fields.lookup "name")
    patterns := ← orDefault (readRules depth) [] (fields.lookup "patterns")
    repository := ← optional (readRepository depth) (fields.lookup "repository")
    injections := ← optional (readInjections depth) (fields.lookup "injections")
    injectionSelector := ← optional readText (fields.lookup "injectionSelector")
    fileTypes := ← orDefault (readList readText) [] (fields.lookup "fileTypes")
    firstLineMatch := ← optional readText (fields.lookup "firstLineMatch") }

/-- Reads the text of a grammar document. -/
def RawGrammar.parse (s : String) : Except Error RawGrammar :=
  match Json.parse s with
  | some j => ofJson j
  | none => .error .badDocument

end LineScopes
