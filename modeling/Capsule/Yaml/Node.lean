import Capsule.Yaml.Token

/-!
# YAML nodes

The tree that the tokens of a document make. `Node.ofTokens?` reads a whole text's tokens: it is
`none` when they make no tree or more than one document, and `some none` when there is no document
at all.

An alias refers to an anchored node, and what it refers to depends on the anchors before it, so the
type of references is a parameter: names as they are read, numbers once they are resolved.
Resolution gives each anchored node the number of names known when it begins. A name that is
anchored a second time does not add to them, so the next new name shares its number, and of two
nodes with one number aliases mean the one that begins last.

## Main definitions

* `Node`: a scalar, a sequence, a mapping or an alias
* `Node.ofTokens?`: the node of a text's only document
* `Document.ofText?`: the same from the text, with all aliases resolved
-/

namespace Capsule.Yaml

/-- The anchor and the tag of a node. -/
structure Properties where
  anchor : Option (List Char) := none
  tag : Option (List Char) := none
deriving DecidableEq, Repr

/-- A node, with references of type `ρ`. -/
inductive Node (ρ : Type) where
  | scalar (properties : Properties) (style : Style) (text : List Char)
  | sequence (properties : Properties) (items : List (Node ρ))
  | mapping (properties : Properties) (entries : List (Node ρ × Node ρ))
  | alias (target : ρ)

namespace Node

variable {ρ : Type}

/-- The scalar that stands where nothing is written. -/
def absent : Node ρ := .scalar {} .plain []

/-! ### From tokens -/

/-- A handle of tags and what it abbreviates. -/
abbrev Handles := List (List Char × List Char)

/-- The handles that need no directive. -/
def defaultHandles : Handles :=
  [(['!'], ['!']), (['!', '!'], "tag:yaml.org,2002:".toList)]

/-- A tag in full. -/
def resolveTag (handles : Handles) (handle suffix : List Char) : Option (List Char) :=
  if handle.isEmpty then some suffix
  else (handles.lookup handle).map (· ++ suffix)

/-- An anchor and a tag in either order. -/
def takeProperties (handles : Handles) : List Token → Option (Properties × List Token)
  | .anchor a :: .tag h s :: ts => do pure (⟨some a, some (← resolveTag handles h s)⟩, ts)
  | .tag h s :: .anchor a :: ts => do pure (⟨some a, some (← resolveTag handles h s)⟩, ts)
  | .anchor a :: ts => some (⟨some a, none⟩, ts)
  | .tag h s :: ts => do pure (⟨none, some (← resolveTag handles h s)⟩, ts)
  | ts => some ({}, ts)

/-- A scalar's own properties: the tag of a lone exclamation mark says nothing about it. -/
def scalarProperties (p : Properties) : Properties :=
  if p.tag = some ['!'] then { p with tag := none } else p

/-- Whether one of the given tokens comes next. -/
def comes (ts : List Token) (any : List Token) : Bool :=
  match ts with
  | t :: _ => t ∈ any
  | [] => false

mutual

/-- A node. `block` allows blocks, `bare` a sequence without indentation of its own. -/
def read (handles : Handles) (fuel : Nat) (block bare : Bool) (ts : List Token) :
    Option (Node (List Char) × List Token) :=
  match fuel with
  | 0 => none
  | fuel + 1 =>
    match ts with
    | .alias name :: ts => some (.alias name, ts)
    | ts => do
      let (p, ts) ← takeProperties handles ts
      match ts, block, bare with
      | .blockEntry :: _, _, true => do
        let (items, ts) ← readBareItems handles fuel ts
        pure (.sequence p items, ts)
      | .scalar style text :: ts, _, _ => some (.scalar (scalarProperties p) style text, ts)
      | .flowSequenceStart :: ts, _, _ => do
        let (items, ts) ← readFlowItems handles fuel true ts
        pure (.sequence p items, ts)
      | .flowMappingStart :: ts, _, _ => do
        let (entries, ts) ← readFlowEntries handles fuel true ts
        pure (.mapping p entries, ts)
      | .blockSequenceStart :: ts, true, _ => do
        let (items, ts) ← readBlockItems handles fuel ts
        pure (.sequence p items, ts)
      | .blockMappingStart :: ts, true, _ => do
        let (entries, ts) ← readBlockEntries handles fuel ts
        pure (.mapping p entries, ts)
      | ts, _, _ => if p = {} then none else some (.scalar p .plain [], ts)

/-- A node, unless one of the given tokens comes next. -/
def readUnless (handles : Handles) (fuel : Nat) (block bare : Bool) (stops : List Token)
    (ts : List Token) : Option (Node (List Char) × List Token) :=
  match fuel with
  | 0 => none
  | fuel + 1 =>
    if comes ts stops then some (absent, ts) else read handles fuel block bare ts

/-- What a value token introduces, or nothing where none comes. -/
def readValue (handles : Handles) (fuel : Nat) (block : Bool) (stops : List Token)
    (ts : List Token) : Option (Node (List Char) × List Token) :=
  match fuel with
  | 0 => none
  | fuel + 1 =>
    match ts with
    | .value :: ts => readUnless handles fuel block block stops ts
    | ts => some (absent, ts)

def readBlockItems (handles : Handles) (fuel : Nat) (ts : List Token) :
    Option (List (Node (List Char)) × List Token) :=
  match fuel with
  | 0 => none
  | fuel + 1 =>
    match ts with
    | .blockEntry :: ts => do
      let (item, ts) ← readUnless handles fuel true false [.blockEntry, .blockEnd] ts
      let (items, ts) ← readBlockItems handles fuel ts
      pure (item :: items, ts)
    | .blockEnd :: ts => some ([], ts)
    | _ => none

def readBareItems (handles : Handles) (fuel : Nat) (ts : List Token) :
    Option (List (Node (List Char)) × List Token) :=
  match fuel with
  | 0 => none
  | fuel + 1 =>
    match ts with
    | .blockEntry :: ts => do
      let (item, ts) ←
        readUnless handles fuel true false [.blockEntry, .key, .value, .blockEnd] ts
      let (items, ts) ← readBareItems handles fuel ts
      pure (item :: items, ts)
    | ts => some ([], ts)

def readBlockEntries (handles : Handles) (fuel : Nat) (ts : List Token) :
    Option (List (Node (List Char) × Node (List Char)) × List Token) :=
  match fuel with
  | 0 => none
  | fuel + 1 =>
    match ts with
    | .key :: ts => do
      let stops := [.key, .value, .blockEnd]
      let (k, ts) ← readUnless handles fuel true true stops ts
      let (v, ts) ← readValue handles fuel true stops ts
      let (entries, ts) ← readBlockEntries handles fuel ts
      pure ((k, v) :: entries, ts)
    | .blockEnd :: ts => some ([], ts)
    | _ => none

/-- The pair that a key token introduces among the items of a sequence. Where its key is missing,
the token in its place is passed over. -/
def readPair (handles : Handles) (fuel : Nat) (ts : List Token) :
    Option ((Node (List Char) × Node (List Char)) × List Token) :=
  match fuel with
  | 0 => none
  | fuel + 1 => do
    let (k, ts) ←
      if comes ts [.value, .flowEntry, .flowSequenceEnd] then some (absent, ts.drop 1)
      else read handles fuel false false ts
    let (v, ts) ← readValue handles fuel false [.flowEntry, .flowSequenceEnd] ts
    pure ((k, v), ts)

/-- The items up to the closing bracket; before each but the first a comma is due. -/
def readFlowItems (handles : Handles) (fuel : Nat) (first : Bool) (ts : List Token) :
    Option (List (Node (List Char)) × List Token) :=
  match fuel with
  | 0 => none
  | fuel + 1 =>
    match ts, first with
    | .flowSequenceEnd :: ts, _ => some ([], ts)
    | .flowEntry :: .flowSequenceEnd :: ts, false => some ([], ts)
    | .flowEntry :: ts, false => readFlowItem handles fuel ts
    | ts, true => readFlowItem handles fuel ts
    | _, false => none

/-- One item, and those behind it. -/
def readFlowItem (handles : Handles) (fuel : Nat) (ts : List Token) :
    Option (List (Node (List Char)) × List Token) :=
  match fuel with
  | 0 => none
  | fuel + 1 => do
    let (item, ts) ← match ts with
      | .key :: ts => do
        let (entry, ts) ← readPair handles fuel ts
        pure (Node.mapping {} [entry], ts)
      | ts => read handles fuel false false ts
    let (items, ts) ← readFlowItems handles fuel false ts
    pure (item :: items, ts)

/-- The entries up to the closing brace; before each but the first a comma is due. -/
def readFlowEntries (handles : Handles) (fuel : Nat) (first : Bool) (ts : List Token) :
    Option (List (Node (List Char) × Node (List Char)) × List Token) :=
  match fuel with
  | 0 => none
  | fuel + 1 =>
    match ts, first with
    | .flowMappingEnd :: ts, _ => some ([], ts)
    | .flowEntry :: .flowMappingEnd :: ts, false => some ([], ts)
    | .flowEntry :: ts, false => readFlowEntry handles fuel ts
    | ts, true => readFlowEntry handles fuel ts
    | _, false => none

/-- One entry, and those behind it. An entry without a key token is a key without a value. -/
def readFlowEntry (handles : Handles) (fuel : Nat) (ts : List Token) :
    Option (List (Node (List Char) × Node (List Char)) × List Token) :=
  match fuel with
  | 0 => none
  | fuel + 1 => do
    let (entry, ts) ← match ts with
      | .key :: ts => do
        let (k, ts) ←
          readUnless handles fuel false false [.value, .flowEntry, .flowMappingEnd] ts
        let (v, ts) ← readValue handles fuel false [.flowEntry, .flowMappingEnd] ts
        pure ((k, v), ts)
      | ts => do
        let (k, ts) ← read handles fuel false false ts
        pure ((k, absent), ts)
    let (entries, ts) ← readFlowEntries handles fuel false ts
    pure (entry :: entries, ts)

end

/-- The directives before a document: at most one version, which must be 1.1 or 1.2, and each handle
at most once. -/
def takeDirectives (version : Bool) (handles : Handles) : List Token → Option (Handles × List Token)
  | .version major minor :: ts =>
    if version ∨ major ≠ 1 ∨ (minor ≠ 1 ∧ minor ≠ 2) then none
    else takeDirectives true handles ts
  | .tagDirective handle head :: ts =>
    if (handles.lookup handle).isSome then none
    else takeDirectives version ((handle, head) :: handles) ts
  | ts => some (handles, ts)

/-- Whether a token begins what stands before a document. -/
def beginsExplicit : Token → Bool
  | .version _ _ => true
  | .tagDirective _ _ => true
  | .documentStart => true
  | _ => false

/-- The node of the only document among the tokens, if there is one. -/
def ofTokens? (ts : List Token) : Option (Option (Node (List Char))) := do
  let fuel := 4 * ts.length + 4
  match ts with
  | [] => some none
  | t :: _ =>
    let (node, rest) ←
      if beginsExplicit t then do
        let (handles, rest) ← takeDirectives false [] ts
        match rest with
        | .documentStart :: rest =>
          match rest with
          | [] => some (absent, [])
          | t :: _ =>
            if beginsExplicit t || t == .documentEnd then some (absent, rest)
            else read (handles ++ defaultHandles) fuel true false rest
        | _ => none
      else read defaultHandles fuel true false ts
    if (rest.dropWhile (· == .documentEnd)).isEmpty then some (some node) else none

end Node

/-! ### Aliases -/

/-- What is known of the anchors passed so far. -/
structure Anchors where
  /-- The number of each name. -/
  numbers : List (List Char × Nat) := []
  /-- For each anchored node, in the reverse of the order in which they begin: its number. -/
  begun : List Nat := []
  /-- The anchored nodes that are complete, by the count of those that began before them. -/
  complete : List (Nat × Node Nat) := []

namespace Anchors

/-- A node with the given anchor begins. -/
def enter (a : Anchors) : Option (List Char) → Anchors
  | none => a
  | some name =>
    let n := a.numbers.length
    { a with
      numbers := (name, n) :: a.numbers.filter (·.1 ≠ name)
      begun := n :: a.begun }

/-- The node that began behind `before` others is complete. -/
def leave (a : Anchors) (before : Nat) (anchor : Option (List Char)) (node : Node Nat) : Anchors :=
  if anchor.isSome then { a with complete := (before, node) :: a.complete } else a

mutual

/-- Resolves the aliases of a node. -/
def resolve (a : Anchors) : Node (List Char) → Option (Node Nat × Anchors)
  | .alias name => do pure (.alias (← a.numbers.lookup name), a)
  | .scalar p style text =>
    let before := a.begun.length
    some (.scalar p style text, (a.enter p.anchor).leave before p.anchor (.scalar p style text))
  | .sequence p items => do
    let before := a.begun.length
    let (items, a) ← (a.enter p.anchor).resolveItems items
    pure (.sequence p items, a.leave before p.anchor (.sequence p items))
  | .mapping p entries => do
    let before := a.begun.length
    let (entries, a) ← (a.enter p.anchor).resolveEntries entries
    pure (.mapping p entries, a.leave before p.anchor (.mapping p entries))

def resolveItems (a : Anchors) : List (Node (List Char)) → Option (List (Node Nat) × Anchors)
  | [] => some ([], a)
  | x :: xs => do
    let (x, a) ← a.resolve x
    let (xs, a) ← a.resolveItems xs
    pure (x :: xs, a)

def resolveEntries (a : Anchors) :
    List (Node (List Char) × Node (List Char)) → Option (List (Node Nat × Node Nat) × Anchors)
  | [] => some ([], a)
  | (k, v) :: es => do
    let (k, a) ← a.resolve k
    let (v, a) ← a.resolve v
    let (es, a) ← a.resolveEntries es
    pure ((k, v) :: es, a)

end

/-- The node with a number: of several, the one that begins last. -/
def node? (a : Anchors) (number : Nat) : Option (Node Nat) :=
  match a.begun.findIdx? (· == number) with
  | none => none
  | some i => a.complete.lookup (a.begun.length - 1 - i)

end Anchors

/-- A document with resolved aliases. -/
structure Document where
  /-- The node, unless the text holds no document. -/
  root : Option (Node Nat)
  anchors : Anchors

namespace Document

/-- The only document of a text. -/
def ofText? (text : List Char) : Option Document := do
  let ts ← Token.ofText? text
  match ← Node.ofTokens? ts with
  | none => some ⟨none, {}⟩
  | some node =>
    let (root, anchors) ← Anchors.resolve {} node
    pure ⟨some root, anchors⟩

/-- The node that a node stands for: that of an alias is the one it refers to. -/
def deref (d : Document) : Node Nat → Option (Node Nat)
  | .alias n => d.anchors.node? n
  | node => some node

end Document

end Capsule.Yaml
