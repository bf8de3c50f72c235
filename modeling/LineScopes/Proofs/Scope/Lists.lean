import LineScopes.Proofs.Text.Pieces
import LineScopes.Scan.State
import Mathlib.Data.List.Infix

/-!
# Scope lists are made of their names

A list of scopes starts with one scope, or from nothing with the scopes of a rule name, and rule
names are pushed on it. Every push looks at the metadata around the new scope and at the whole new
path. So in the end the metadata depends on the names alone: it is folded over the paths from the
outermost scope inward, and the calls that made the list leave no other trace.

**Main definitions.** `ScopeList.pushOver`, `ScopePath.leading`, `Attribution.along`,
`ScopeList.Made`.

**Main statements.** `pushNameOver_pushNameOver`: a name with a space is two names.
`Made.eq_ofNames`: a list is made of its names. `metadata_of_made`: what its metadata is.
-/

namespace LineScopes

namespace ScopeList

/-- Pushes one scope. Text without scopes has some default metadata. -/
def pushOver
    (a : Attribution)
    (default : Metadata)
    (l : ScopeList)
    (name : String) : ScopeList :=
  let path := l.path.push name
  ⟨path, a.inside (l.metadata?.getD default) name path :: l.metadata⟩

/-- Pushes the scopes of a rule name over some default metadata. -/
def pushNameOver
    (a : Attribution)
    (default : Metadata)
    (l : ScopeList) : Option String → ScopeList
  | none => l
  | some name => (Text.splitAt ' ' name).foldl (pushOver a default) l

/-- The default metadata of an attribution is that of text without scopes. -/
theorem pushNameOver_defaults
    (a : Attribution)
    (l : ScopeList)
    (name : Option String) :
    l.pushNameOver a a.defaults name = l.pushName a name := by
  cases name <;> rfl

/-- The scopes of a rule name. -/
def scopesOf : Option String → List String
  | none => []
  | some name => Text.splitAt ' ' name

theorem pushNameOver_eq_foldl
    (a : Attribution)
    (default : Metadata)
    (l : ScopeList)
    (name : Option String) :
    l.pushNameOver a default name = (scopesOf name).foldl (pushOver a default) l := by
  cases name <;> rfl

/-- Two rule names pushed one after the other are one rule name with a space between them. -/
theorem pushNameOver_pushNameOver
    (a : Attribution)
    (default : Metadata)
    (l : ScopeList)
    (name name' : String) :
    (l.pushNameOver a default (some name)).pushNameOver a default (some name') =
      l.pushNameOver a default (some (name ++ " " ++ name')) := by
  have hpieces := Text.splitAt_append_singleton_append ' ' name name'
  simp only [pushNameOver]
  rw [← List.foldl_append, ← hpieces]
  rfl

/-- The list of some names, outermost first. -/
def ofNames
    (a : Attribution)
    (default : Metadata)
    (names : List String) : ScopeList :=
  names.foldl (pushOver a default) empty

theorem ofNames_append
    (a : Attribution)
    (default : Metadata)
    (names names' : List String) :
    ofNames a default (names ++ names') = names'.foldl (pushOver a default)
      (ofNames a default names) :=
  List.foldl_append

end ScopeList

/-- The paths that lead to the innermost one of some scopes, each one scope longer than the one
before. -/
def ScopePath.leading (names : List String) : List ScopePath :=
  names.inits.tail.map ofSegments

/-- The metadata inside some scopes: each path on the way to the innermost one says what it adds to
the metadata around it. -/
def Attribution.along
    (a : Attribution)
    (default : Metadata)
    (names : List String) : Metadata :=
  (ScopePath.leading names).foldl (fun outer path =>
    a.inside outer (path.innermost?.getD "") path) default

section Names

variable {a : Attribution} {default : Metadata}

theorem inits_tail_concat
    {α : Type}
    (xs : List α)
    (x : α) :
    (xs ++ [x]).inits.tail = xs.inits.tail ++ [xs ++ [x]] := by
  have hne : xs.inits ≠ [] := by
    cases xs <;> simp
  rw [List.inits_append, List.tail_append_of_ne_nil hne]
  simp

/-- The longest of the leading parts of a list is the list itself. -/
theorem head?_map_inits_tail
    {α β : Type}
    (f : List α → β)
    (xs : List α) :
    (xs.inits.tail.map f).reverse.head? = if xs = [] then none else some (f xs) := by
  cases xs using List.reverseRecOn with
  | nil =>
      rfl
  | append_singleton xs x =>
      rw [inits_tail_concat, List.map_append, List.reverse_append, if_neg (by simp)]
      rfl

theorem ScopePath.leading_concat
    (names : List String)
    (name : String) :
    leading (names ++ [name]) = leading names ++ [ofSegments (names ++ [name])] := by
  simp only [leading, inits_tail_concat, List.map_append, List.map_cons, List.map_nil]

theorem ScopePath.ofSegments_concat
    (names : List String)
    (name : String) :
    ofSegments (names ++ [name]) = (ofSegments names).push name := by
  simp [ofSegments, pushAll]

theorem Attribution.along_concat
    (names : List String)
    (name : String) :
    a.along default (names ++ [name]) =
      a.inside (a.along default names) name (.ofSegments (names ++ [name])) := by
  rw [along, ScopePath.leading_concat, List.foldl_append, ScopePath.ofSegments_concat]
  rfl

namespace ScopeList

/-- The list of some names has these names, and at each of its levels the metadata is that along the
names up to there. -/
theorem ofNames_eq
    (names : List String) :
    ofNames a default names =
      ⟨.ofSegments names, (names.inits.tail.map (a.along default)).reverse⟩ := by
  induction names using List.reverseRecOn with
  | nil =>
      rfl
  | append_singleton names name ih =>
      have houter : ((names.inits.tail.map (a.along default)).reverse.head?).getD default =
          a.along default names := by
        rw [head?_map_inits_tail]
        split
        · rename_i hnil
          rw [hnil]
          rfl
        · rfl
      rw [ofNames_append, ih, List.foldl_cons, List.foldl_nil, pushOver, metadata?, houter,
        ← ScopePath.ofSegments_concat, ← Attribution.along_concat, inits_tail_concat,
        List.map_append, List.reverse_append]
      rfl

/-- The calls that make a list of scopes, with the names they are given: it starts from nothing, or
with one scope whose name is taken as it is, and rule names are pushed. -/
inductive Made (a : Attribution) (default : Metadata) : ScopeList → List String → Prop
  | nothing : Made a default .empty []
  | root (name : String) : Made a default (empty.pushOver a default name) [name]
  | pushed {l : ScopeList} {names : List String} (h : Made a default l names)
    (name : Option String) :
    Made a default (l.pushNameOver a default name) (names ++ scopesOf name)

/-- A list is made of its names. -/
theorem Made.eq_ofNames
    {l : ScopeList}
    {names : List String}
    (h : Made a default l names) :
    l = ofNames a default names := by
  induction h with
  | nothing =>
      rfl
  | root name =>
      rfl
  | pushed h name ih =>
      rw [pushNameOver_eq_foldl, ofNames_append, ih]

/-- The metadata of a list of scopes is a function of its names, whatever calls made it. A scanner
makes its lists over the default metadata of its attribution. -/
theorem metadata_of_made
    {l : ScopeList}
    {names : List String}
    (h : Made a default l names) :
    l.names = names ∧
      l.metadata? = (if names = [] then none else some (a.along default names)) ∧
      l.metadata = (names.inits.tail.map (a.along default)).reverse ∧
      (∀ name name', (l.pushNameOver a default (some name)).pushNameOver a default (some name') =
        l.pushNameOver a default (some (name ++ " " ++ name'))) ∧
      (∀ l', Made a default l' names → (l == l') = true) ∧
      (default = a.defaults → (∀ name, l.pushOver a default name = l.push a name) ∧
        ∀ name, l.pushNameOver a default name = l.pushName a name) := by
  have hl := h.eq_ofNames
  have heq := hl.trans (ofNames_eq names)
  refine ⟨?_, ?_, ?_, pushNameOver_pushNameOver a default l, fun l' h' => ?_, ?_⟩
  · rw [heq]
    exact ScopePath.segments_ofSegments names
  · rw [heq]
    exact head?_map_inits_tail _ names
  · rw [heq]
  · rw [hl, h'.eq_ofNames]
    exact beq_self_eq_true _
  · rintro rfl
    exact ⟨fun _ => rfl, pushNameOver_defaults a l⟩

/-- Quoted text is bold, and pages are of a language of their own. -/
def pageAttribution : Attribution where
  languages := { initial := 1, embedded := [("text.html", 2)] }
  theme := { Theme.plain with root := Trie.empty.insert 0 ["quote"] none ⟨some .bold, 2, 0⟩ }

/-- A page inside a quote, pushed name by name on the scope of a grammar, or from nothing at once.
The language is that of the page, and the page stays bold. -/
theorem metadata_of_made_page :
    let a := pageAttribution
    let l := ((empty.push a "source").pushName a (some "quote")).pushName a (some "meta text.html")
    l.names = ["source", "quote", "meta", "text.html"] ∧
      l.metadata?.map Metadata.fields = some ⟨2, .other, .bold, 2, 2⟩ ∧
      (l == empty.pushName a (some "source quote meta text.html")) = true := by
  intro a l
  have hroot : Made a a.defaults (empty.push a "source") ["source"] := .root "source"
  have hquote := hroot.pushed (some "quote")
  rw [pushNameOver_defaults] at hquote
  have hpage := hquote.pushed (some "meta text.html")
  rw [pushNameOver_defaults] at hpage
  have hnothing : Made a a.defaults .empty [] := .nothing
  have honce := hnothing.pushed (some "source quote meta text.html")
  rw [pushNameOver_defaults] at honce
  have hsame : [] ++ scopesOf (some "source quote meta text.html") =
      ["source"] ++ scopesOf (some "quote") ++ scopesOf (some "meta text.html") := by
    decide +kernel
  rw [hsame] at honce
  obtain ⟨hnames, hmetadata, -, -, hequal, -⟩ := metadata_of_made hpage
  refine ⟨hnames.trans (by decide +kernel), ?_, hequal _ honce⟩
  rw [hmetadata]
  decide +kernel

end ScopeList

end Names

end LineScopes
