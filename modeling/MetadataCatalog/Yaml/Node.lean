import MetadataCatalog.Yaml.Token

/-!
# Nodes of indented texts

A document is one node: a scalar, a list of nodes, a map of pairs of nodes, or an alias. A node may
have a tag, whose handle is replaced by what it means. A node that is not written is an empty plain
scalar.

A node may have an anchor, and an alias of that anchor further on stands for it. Anchors are known
by numbers: a name gets as its number how many names there have been, so a name that is given again
gets the number that the next new name will get too. An alias has the number that its name has where
the alias stands, and it means the last node in the whole document that got this number.

The readers of nodes call each other. Every call but those for an empty node takes a token, so twice
as many nested calls as there are tokens are enough.
-/

namespace MetadataCatalog.Yaml

/-! ## §1 Nodes -/

/-- A scalar with its tag, and whether it is plain. -/
structure Scalar where
  tag : Option String
  plain : Bool
  text : String
  deriving DecidableEq, Repr

/-- A scalar, a list, a map, or an alias of the anchor with the given number. -/
inductive Node where
  | scalar (s : Scalar)
  | list (items : List Node)
  | map (entries : List (Node × Node))
  | alias (number : Nat)

/-- The node that is not written. -/
def Node.unwritten : Node := .scalar ⟨none, true, ""⟩

/-- The scalars among the nodes with anchors, by number, the latest first; a list or a map has its
number too. -/
abbrev Anchored := List (Nat × Option Scalar)

/-- A document: its node, and its nodes with anchors. -/
structure Document where
  root : Node
  anchored : Anchored

/-- The scalar that a node is or stands for. -/
def Document.scalar? (d : Document) : Node → Option Scalar
  | .scalar s => some s
  | .alias number => (d.anchored.find? (·.1 = number)).bind Prod.snd
  | _ => none

/-- What is left of the tokens, the numbers of the names of anchors, the nodes with anchors, and the
meanings of the tag handles. -/
structure Reader where
  tokens : List Token
  names : List (String × Nat)
  anchored : Anchored
  handles : List (String × String)

namespace Reader

/-- The next token. -/
def next? (s : Reader) : Option Token :=
  s.tokens.head?

/-- Behind the next token. -/
def skip (s : Reader) : Reader :=
  { s with tokens := s.tokens.drop 1 }

/-- Whether the next token is one of the given ones. -/
def nextIn (s : Reader) (tokens : List Token) : Bool :=
  match s.next? with
  | some token => tokens.contains token
  | none => false

/-- Gives an anchor to a node, of which only a scalar matters. -/
def withAnchor (s : Reader) (anchor : Option String) (scalar : Option Scalar) : Reader :=
  match anchor with
  | some name =>
    let number := s.names.length
    { s with
      names := (name, number) :: s.names.filter (·.1 ≠ name)
      anchored := (number, scalar) :: s.anchored }
  | none => s

/-- The number of the anchor of the given name. -/
def number? (s : Reader) (name : String) : Option Nat :=
  (s.names.find? (·.1 = name)).map Prod.snd

/-- The meaning of a tag. -/
def resolveTag? (s : Reader) (handle suffix : String) : Option String :=
  if handle = "" then some suffix
  else (s.handles.find? (·.1 = handle)).map fun (_, start) => start ++ suffix

/-- The anchor and the tag before a node, in either order. -/
def properties? (s : Reader) : Option (Option String × Option String × Reader) :=
  match s.tokens with
  | .anchor name :: .tag handle suffix :: rest | .tag handle suffix :: .anchor name :: rest =>
    (s.resolveTag? handle suffix).map fun tag => (some name, some tag, { s with tokens := rest })
  | .anchor name :: rest => some (some name, none, { s with tokens := rest })
  | .tag handle suffix :: rest =>
    (s.resolveTag? handle suffix).map fun tag => (none, some tag, { s with tokens := rest })
  | _ => some (none, none, s)

/-! ## §2 Reading nodes -/

mutual

/-- A node. Blocks are allowed or not; so is a list of entries that is not indented further than
the key before it. -/
def node? (block entries : Bool) : Nat → Reader → Option (Node × Reader)
  | 0, _ => none
  | n + 1, s =>
    match s.next? with
    | some (.alias name) => (s.number? name).map fun number => (.alias number, s.skip)
    | _ =>
      match s.properties? with
      | none => none
      | some (anchor, tag, s) =>
        let asList (read : Option (List Node × Reader)) : Option (Node × Reader) :=
          read.map fun (items, s) => (.list items, s)
        let asMap (read : Option (List (Node × Node) × Reader)) : Option (Node × Reader) :=
          read.map fun (entries, s) => (.map entries, s)
        match s.next? with
        | some (.scalar plain text) =>
          let scalar : Scalar := ⟨if tag = some "!" then none else tag, plain, text⟩
          some (.scalar scalar, s.skip.withAnchor anchor scalar)
        | some .openList => asList (flowItems? true n (s.skip.withAnchor anchor none))
        | some .openMap => asMap (flowEntries? true n (s.skip.withAnchor anchor none))
        | next =>
          if entries ∧ next = some .entry then
            asList (plainItems? n (s.withAnchor anchor none))
          else if block ∧ next = some .blockSequence then
            asList (blockItems? n (s.skip.withAnchor anchor none))
          else if block ∧ next = some .blockMapping then
            asMap (blockEntries? n (s.skip.withAnchor anchor none))
          else if anchor.isSome ∨ tag.isSome then
            let scalar : Scalar := ⟨tag, true, ""⟩
            some (.scalar scalar, s.withAnchor anchor scalar)
          else none

/-- A node, or the unwritten one if one of the given tokens comes next. -/
def nodeUnless? (stops : List Token) (block entries : Bool) :
    Nat → Reader → Option (Node × Reader)
  | 0, _ => none
  | n + 1, s => if s.nextIn stops then some (.unwritten, s) else node? block entries n s

/-- The items of a block list. -/
def blockItems? : Nat → Reader → Option (List Node × Reader)
  | 0, _ => none
  | n + 1, s =>
    match s.next? with
    | some .entry => do
      let (item, s) ← nodeUnless? [.entry, .blockEnd] true false n s.skip
      let (items, s) ← blockItems? n s
      some (item :: items, s)
    | some .blockEnd => some ([], s.skip)
    | _ => none

/-- The items of a list that stands in the column of its key. -/
def plainItems? : Nat → Reader → Option (List Node × Reader)
  | 0, _ => none
  | n + 1, s =>
    match s.next? with
    | some .entry => do
      let (item, s) ← nodeUnless? [.entry, .key, .value, .blockEnd] true false n s.skip
      let (items, s) ← plainItems? n s
      some (item :: items, s)
    | _ => some ([], s)

/-- The entries of a block map. -/
def blockEntries? : Nat → Reader → Option (List (Node × Node) × Reader)
  | 0, _ => none
  | n + 1, s =>
    match s.next? with
    | some .blockEnd => some ([], s.skip)
    | some .key => do
      let (key, s) ← nodeUnless? [.key, .value, .blockEnd] true true n s.skip
      let (value, s) ←
        if s.nextIn [.value] then nodeUnless? [.key, .value, .blockEnd] true true n s.skip
        else some (.unwritten, s)
      let (entries, s) ← blockEntries? n s
      some ((key, value) :: entries, s)
    | _ => none

/-- The items of a list between brackets, up to the closing bracket; before the first item there is
no comma. An item can be a single pair. -/
def flowItems? (first : Bool) : Nat → Reader → Option (List Node × Reader)
  | 0, _ => none
  | n + 1, s =>
    if s.nextIn [.closeList] then some ([], s.skip)
    else if !first ∧ !s.nextIn [.comma] then none
    else
      let s := if first then s else s.skip
      if s.nextIn [.closeList] then some ([], s.skip)
      else do
        let (item, s) ← if s.nextIn [.key] then flowPair? n s.skip else node? false false n s
        let (items, s) ← flowItems? false n s
        some (item :: items, s)

/-- A single pair among the items of a list, behind the token of its key. -/
def flowPair? : Nat → Reader → Option (Node × Reader)
  | 0, _ => none
  | n + 1, s => do
    let (key, s) ←
      if s.nextIn [.value, .comma, .closeList] then some (.unwritten, s.skip)
      else node? false false n s
    let (value, s) ←
      if s.nextIn [.value] then nodeUnless? [.comma, .closeList] false false n s.skip
      else some (.unwritten, s)
    some (.map [(key, value)], s)

/-- The entries of a map between braces, up to the closing brace; before the first entry there is
no comma. An entry can be a key alone. -/
def flowEntries? (first : Bool) : Nat → Reader → Option (List (Node × Node) × Reader)
  | 0, _ => none
  | n + 1, s =>
    if s.nextIn [.closeMap] then some ([], s.skip)
    else if !first ∧ !s.nextIn [.comma] then none
    else
      let s := if first then s else s.skip
      if s.nextIn [.closeMap] then some ([], s.skip)
      else do
        let (key, value, s) ←
          if s.nextIn [.key] then do
            let (key, s) ← nodeUnless? [.value, .comma, .closeMap] false false n s.skip
            let (value, s) ←
              if s.nextIn [.value] then nodeUnless? [.comma, .closeMap] false false n s.skip
              else some (.unwritten, s)
            some (key, value, s)
          else do
            let (key, s) ← node? false false n s
            some (key, .unwritten, s)
        let (entries, s) ← flowEntries? false n s
        some ((key, value) :: entries, s)

end

/-! ## §3 Documents -/

/-- The meanings of the tag handles that need no directive. -/
def standardHandles : List (String × String) :=
  [("!", "!"), ("!!", "tag:yaml.org,2002:")]

/-- Reads the directives before a document: at most one version, and each handle once. -/
def directives? (versioned : Bool) (handles : List (String × String)) :
    List Token → Option (Reader)
  | .version major minor :: rest =>
    if versioned ∨ major ≠ 1 ∨ (minor ≠ 1 ∧ minor ≠ 2) then none
    else directives? true handles rest
  | .tagHandle handle start :: rest =>
    if handles.any (·.1 = handle) then none
    else directives? versioned (handles ++ [(handle, start)]) rest
  | tokens => some ⟨tokens, [], [], handles ++ standardHandles⟩

/-- The document that the tokens are, unwritten if there are none. Nothing but marks of its end may
follow it. -/
def document? (tokens : List Token) : Option Document := do
  let s ← directives? false [] tokens
  if tokens = [] then some ⟨.unwritten, []⟩
  else
    let fuel := 2 * tokens.length + 8
    let (node, s) ←
      if s.nextIn [.documentStart] then
        match s.skip.next? with
        | none | some .documentStart | some .documentEnd | some (.version _ _)
        | some (.tagHandle _ _) => some (.unwritten, s.skip)
        | _ => node? true false fuel s.skip
      else if s.tokens.length < tokens.length then none
      else node? true false fuel s
    if s.tokens.all (· = .documentEnd) then some ⟨node, s.anchored⟩ else none

end Reader

/-- The document that a text is. -/
def document? (text : String) : Option Document := do
  let tokens ← tokens? text
  Reader.document? tokens

end MetadataCatalog.Yaml
