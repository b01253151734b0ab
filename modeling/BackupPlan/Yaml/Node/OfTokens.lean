import BackupPlan.Yaml.Node.Basic
import BackupPlan.Yaml.Source
import BackupPlan.Yaml.Token.Scan

/-!
# From tokens to nodes

The grammar of documents, one function a rule.  Each takes the tokens that are
left and hands on those behind the nodes that it reads.
-/

namespace BackupPlan.Yaml

/-- The tokens that are left, and what the document has said so far. -/
structure Build where
  /-- The tokens that are left. -/
  tokens : List Token
  /-- What the handles of tags stand for. -/
  handles : List (String × String) := []
  /-- The number of every name for a node. -/
  names : List (String × Nat) := []
  /-- The numbered nodes. -/
  numbered : List (Nat × Node) := []

namespace Build

/-- The next token. -/
def next (b : Build) : Option Token :=
  b.tokens.head?

/-- Moves on behind the next token. -/
def skip (b : Build) : Build :=
  { b with tokens := b.tokens.drop 1 }

/-- Whether the next token is one of those given. -/
def sees (b : Build) (tokens : List Token) : Bool :=
  (b.next.map tokens.contains).getD false

/-- Gives a name to the node that follows; its number is how many names there
were. -/
def name (b : Build) (name : String) : Nat × Build :=
  let number := b.names.length
  (number, { b with names := (name, number) :: b.names.filter (·.1 != name) })

/-- Keeps a node under its number. -/
def keep (b : Build) (number : Option Nat) (node : Node) : Node × Build :=
  match number with
  | none => (node, b)
  | some n => (node, { b with numbered := (n, node) :: b.numbered.filter (·.1 != n) })

/-- The tag that a handle and a text spell. -/
def tagOf (b : Build) (handle suffix : String) : Option String :=
  if handle = "" then some suffix
  else match b.handles.lookup handle, handle with
    | some meaning, _ => some (meaning ++ suffix)
    | none, "!" => some ("!" ++ suffix)
    | none, "!!" => some ("tag:yaml.org,2002:" ++ suffix)
    | none, _ => none

/-- A node without its name and tag. -/
structure Properties where
  /-- The number of the node. -/
  number : Option Nat := none
  /-- The tag of the node. -/
  tag : Option String := none
  /-- Whether there is a name or a tag at all. -/
  any : Bool := false

/-- Reads the name of a node. -/
def readName (b : Build) (p : Properties) : Properties × Build :=
  match b.next with
  | some (.anchor name) =>
    let (number, b) := b.name name
    ({ p with number := some number, any := true }, b.skip)
  | _ => (p, b)

/-- Reads the tag of a node. -/
def readTag (b : Build) (p : Properties) : Option (Properties × Build) :=
  match b.next with
  | some (.tag handle suffix) =>
    (b.tagOf handle suffix).map fun tag => ({ p with tag := some tag, any := true }, b.skip)
  | _ => some (p, b)

/-- Reads the name and the tag of a node, in either order. -/
def properties (b : Build) : Option (Properties × Build) := do
  let (p, b) := b.readName {}
  let (p, b) ← b.readTag p
  pure (if p.number.isNone then b.readName p else (p, b))

/-- A node that is left out. -/
def nothing (b : Build) : Option (Node × Build) :=
  some (Node.empty, b)

mutual

/-- Reads a node.  Structures by indentation are only read where `inBlock` is set,
and dashes without indentation of their own only where `afterKey` is set. -/
def node (inBlock afterKey : Bool) : Nat → Build → Option (Node × Build)
  | 0, _ => none
  | fuel + 1, b =>
    match b.next with
    | some (.alias name) => (b.names.lookup name).map fun number => (.alias number, b.skip)
    | _ => do
      let (p, b) ← b.properties
      match b.next with
      | some .blockEntry =>
        if afterKey then
          let (items, b) ← looseItems fuel b
          pure (b.keep p.number (.sequence p.tag items))
        else if p.any then pure (b.keep p.number (.scalar p.tag true ""))
        else none
      | some (.scalar isPlain text) =>
        pure (b.skip.keep p.number (.scalar (p.tag.filter (· != "!")) isPlain text))
      | some .flowSequenceStart =>
        let (items, b) ← flowItems true fuel b.skip
        pure (b.keep p.number (.sequence p.tag items))
      | some .flowMappingStart =>
        let (members, b) ← flowMembers true fuel b.skip
        pure (b.keep p.number (.mapping p.tag members))
      | some .blockSequenceStart =>
        if inBlock then
          let (items, b) ← blockItems fuel b.skip
          pure (b.keep p.number (.sequence p.tag items))
        else if p.any then pure (b.keep p.number (.scalar p.tag true ""))
        else none
      | some .blockMappingStart =>
        if inBlock then
          let (members, b) ← blockMembers fuel b.skip
          pure (b.keep p.number (.mapping p.tag members))
        else if p.any then pure (b.keep p.number (.scalar p.tag true ""))
        else none
      | _ => if p.any then pure (b.keep p.number (.scalar p.tag true "")) else none

/-- Reads the items of a list by indentation. -/
def blockItems : Nat → Build → Option (List Node × Build)
  | 0, _ => none
  | fuel + 1, b =>
    match b.next with
    | some .blockEnd => some ([], b.skip)
    | some .blockEntry => do
      let b := b.skip
      let (item, b) ←
        if b.sees [.blockEntry, .blockEnd] then nothing b else node true false fuel b
      let (rest, b) ← blockItems fuel b
      pure (item :: rest, b)
    | _ => none

/-- Reads the items of a list whose dashes stand below their key. -/
def looseItems : Nat → Build → Option (List Node × Build)
  | 0, _ => none
  | fuel + 1, b =>
    match b.next with
    | some .blockEntry => do
      let b := b.skip
      let (item, b) ←
        if b.sees [.blockEntry, .key, .value, .blockEnd] then nothing b
        else node true false fuel b
      let (rest, b) ← looseItems fuel b
      pure (item :: rest, b)
    | _ => some ([], b)

/-- Reads the members of a table by indentation. -/
def blockMembers : Nat → Build → Option (List (Node × Node) × Build)
  | 0, _ => none
  | fuel + 1, b =>
    match b.next with
    | some .blockEnd => some ([], b.skip)
    | some .key => do
      let isEnd (b : Build) : Bool := b.sees [.key, .value, .blockEnd]
      let b := b.skip
      let (key, b) ← if isEnd b then nothing b else node true true fuel b
      let (value, b) ←
        if b.sees [.value] then
          if isEnd b.skip then nothing b.skip else node true true fuel b.skip
        else nothing b
      let (rest, b) ← blockMembers fuel b
      pure ((key, value) :: rest, b)
    | _ => none

/-- Reads the items of a list between brackets. -/
def flowItems (isFirst : Bool) : Nat → Build → Option (List Node × Build)
  | 0, _ => none
  | fuel + 1, b =>
    if b.sees [.flowSequenceEnd] then some ([], b.skip)
    else do
      let b ← if isFirst then some b else if b.sees [.flowEntry] then some b.skip else none
      if b.sees [.flowSequenceEnd] then pure ([], b.skip)
      else
        let (item, b) ←
          if b.sees [.key] then flowPair fuel b.skip else node false false fuel b
        let (rest, b) ← flowItems false fuel b
        pure (item :: rest, b)

/-- Reads a single key and value that stand as an item of a list.  A key that is
left out takes the token behind it along. -/
def flowPair : Nat → Build → Option (Node × Build)
  | 0, _ => none
  | fuel + 1, b => do
    let (key, b) ←
      if b.sees [.value, .flowEntry, .flowSequenceEnd] then nothing b.skip
      else node false false fuel b
    let (value, b) ←
      if b.sees [.value] then
        if b.skip.sees [.flowEntry, .flowSequenceEnd] then nothing b.skip
        else node false false fuel b.skip
      else nothing b
    pure (.mapping none [(key, value)], b)

/-- Reads the members of a table between braces. -/
def flowMembers (isFirst : Bool) : Nat → Build → Option (List (Node × Node) × Build)
  | 0, _ => none
  | fuel + 1, b =>
    if b.sees [.flowMappingEnd] then some ([], b.skip)
    else do
      let b ← if isFirst then some b else if b.sees [.flowEntry] then some b.skip else none
      if b.sees [.flowMappingEnd] then pure ([], b.skip)
      else
        let isEnd (b : Build) : Bool := b.sees [.flowEntry, .flowMappingEnd]
        let (key, value, b) ←
          if b.sees [.key] then do
            let b := b.skip
            let (key, b) ←
              if b.sees [.value] || isEnd b then nothing b else node false false fuel b
            let (value, b) ←
              if b.sees [.value] then
                if isEnd b.skip then nothing b.skip else node false false fuel b.skip
              else nothing b
            pure (key, value, b)
          else do
            let (key, b) ← node false false fuel b
            pure (key, Node.empty, b)
        let (rest, b) ← flowMembers false fuel b
        pure ((key, value) :: rest, b)

end

/-- Reads the directives in front of a document. -/
def directives (hasVersion : Bool) : Nat → Build → Option Build
  | 0, _ => none
  | fuel + 1, b =>
    match b.next with
    | some (.version major minor) =>
      if hasVersion || major != 1 || (minor != 1 && minor != 2) then none
      else directives true fuel b.skip
    | some (.tagHandle handle meaning) =>
      if (b.handles.lookup handle).isSome then none
      else directives hasVersion fuel { b.skip with handles := (handle, meaning) :: b.handles }
    | _ => some b

/-- Whether the next token begins a document explicitly. -/
def startsExplicitly (b : Build) : Bool :=
  match b.next with
  | some (.version _ _) | some (.tagHandle _ _) | some .documentStart => true
  | _ => false

/-- Reads the only document of a stream of tokens; no tokens at all are a document
that holds nothing. -/
def document (b : Build) : Option Document := do
  let fuel := 4 * b.tokens.length + 4
  if b.tokens.isEmpty then return ⟨Node.empty, []⟩
  let (root, b) ← if b.startsExplicitly then do
      let b ← directives false fuel b
      if !b.sees [.documentStart] then none
      let b := b.skip
      if b.tokens.isEmpty || b.sees [.documentEnd] || b.startsExplicitly then nothing b
      else node true false fuel b
    else node true false fuel b
  if b.tokens.all (· == .documentEnd) then pure ⟨root, b.numbered⟩ else none

end Build

/-- The document that bytes spell. -/
def Document.ofBytes? (bytes : List UInt8) : Option Document := do
  let source ← Source.chars? bytes
  let tokens ← Token.scan source
  Build.document { tokens }

end BackupPlan.Yaml
