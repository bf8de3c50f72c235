import LineScopes.Registry.Basic
import LineScopes.Text.Quoted

/-!
# Descriptions

The texts by which registries and grammars describe themselves to whoever looks for a mistake.

**Main definitions.** `Selector.describe`, `Injection.describe`, `Grammar.describe`,
`Registry.describe`, `RegistryOptions.describe`.
-/

namespace LineScopes
namespace Describe

/-- A list in brackets. -/
def list (items : List String) : String :=
  "[" ++ ", ".intercalate items ++ "]"

/-- A record with the texts of its fields. -/
def record
    (name : String)
    (fields : List (String × String)) : String :=
  name ++ " \x7b " ++ ", ".intercalate (fields.map fun (field, value) => field ++ ": " ++ value) ++
    " \x7d"

/-- A value that may be absent. -/
def optional : Option String → String
  | some value => "Some(" ++ value ++ ")"
  | none => "None"

/-- A list of quoted texts. -/
def texts (items : List String) : String :=
  list (items.map Text.quote)

end Describe

mutual

/-- The form of a selector. -/
def Selector.describe : Selector → String
  | .names ids => "Identifiers(" ++ Describe.texts ids ++ ")"
  | .all parts => "And(" ++ Describe.list (Selector.describeAll parts) ++ ")"
  | .any parts => "Or(" ++ Describe.list (Selector.describeAll parts) ++ ")"
  | .not part => "Not(" ++ part.describe ++ ")"

/-- The forms of some selectors. -/
def Selector.describeAll : List Selector → List String
  | [] => []
  | s :: rest => s.describe :: Selector.describeAll rest

end

/-- The form of an injection. -/
def Injection.describe (i : Injection) : String :=
  Describe.record "Injection"
    [("selector", Text.quote i.written), ("matcher", i.selector.describe),
      ("priority", i.priority.describe), ("rule_id", "RuleId(" ++ toString i.rule ++ ")")]

/-- The form of scan options. -/
def ScanOptions.describe (o : ScanOptions) : String :=
  Describe.record "TokenizerOptions"
    [("debug", toString o.debug), ("retry_without_anchor", toString o.retryWithoutAnchor)]

/-- The form of a grammar. -/
def Grammar.describe (g : Grammar) : String :=
  Describe.record "Grammar"
    [("scope_name", Text.quote g.scope), ("rules", toString g.rules.size),
      ("injections", Describe.list (g.injections.map Injection.describe)),
      ("options", g.options.describe)]

/-- Scope names in the order of their characters. -/
def sortScopes (scopes : List String) : List String :=
  scopes.mergeSort fun a b => (compare a b).isLE

/-- The form of a registry. -/
def Registry.describe (r : Registry) : String :=
  Describe.record "Registry"
    [("grammars", Describe.texts (sortScopes r.library.scopes)), ("engine", r.engine.name),
      ("tokenizer_options", r.options.describe)]

/-- The form of the options of a registry. -/
def RegistryOptions.describe (o : RegistryOptions) : String :=
  Describe.record "RegistryOptions"
    [("theme", Describe.optional ((o.theme.bind ThemeDocument.name).map Text.quote)),
      ("color_map", Describe.optional (o.colorMap.map Describe.texts)),
      ("has_loader", toString o.loader.isSome), ("engine", o.engine.name),
      ("tokenizer", o.options.describe)]

end LineScopes
