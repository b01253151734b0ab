/-!
# Nodes of a YAML document

A document is a tree of nodes.  A node that stands for an earlier one refers to
it by number, so a node may even stand for one that it is a part of.
-/

namespace BackupPlan.Yaml

/-- A node of a document. -/
inductive Node where
  /-- A text, its tag, and whether it stands bare. -/
  | scalar (tag : Option String) (isPlain : Bool) (text : String)
  /-- A list and its tag. -/
  | sequence (tag : Option String) (items : List Node)
  /-- A table and its tag. -/
  | mapping (tag : Option String) (members : List (Node × Node))
  /-- The node of a number. -/
  | alias (number : Nat)
  deriving Inhabited

/-- A document: its node, and the nodes that others stand for. -/
structure Document where
  /-- The node of the whole document. -/
  root : Node
  /-- The numbered nodes, the latest first. -/
  numbered : List (Nat × Node)

/-- The node of nothing at all. -/
def Node.empty : Node :=
  .scalar none true ""

/-- The node that a node stands for: itself unless it refers to another. -/
def Document.resolve (document : Document) : Node → Node
  | .alias number => (document.numbered.lookup number).getD Node.empty
  | node => node

end BackupPlan.Yaml
