import PageTree.Yaml.Tag

/-!
# Nodes

A document is a tree of nodes: scalars, sequences and mappings. An anchor names a node and an alias stands
for the node that has the name. An alias to a node that it is a part of is the only one that remains in the
tree (`Node.enclosing`); `Node.unfold` puts the node in its place, one level deep.
-/

set_option autoImplicit false

namespace PageTree.Yaml

/-- A node of a document. -/
inductive Node
  | scalar (tag : Tag) (content : Text)
  | sequence (anchor : Option Text) (tag : Tag) (items : List Node)
  | mapping (anchor : Option Text) (tag : Tag) (entries : List (Node × Node))
  | enclosing (name : Text)

/-- The nodes that names stand for. -/
abbrev Anchors := List (Text × Node)

namespace Node

/-- The tag of a node. A node that encloses an alias to it is a collection of some kind. -/
def tag : Node → Tag
  | .scalar tag _ => tag
  | .sequence _ tag _ => tag
  | .mapping _ tag _ => tag
  | .enclosing _ => .seq

/-- The node that an empty place stands for. -/
def empty : Node := .scalar .null []

/-- Names with the name of a node that has one. -/
def anchored (anchor : Option Text) (n : Node) (anchors : Anchors) : Anchors :=
  match anchor with
  | some name => (name, n) :: anchors
  | none => anchors

mutual

/-- Whether an alias to an enclosing node remains. -/
def hasEnclosing : Node → Bool
  | .scalar _ _ => false
  | .sequence _ _ items => itemsHaveEnclosing items
  | .mapping _ _ entries => entriesHaveEnclosing entries
  | .enclosing _ => true

/-- Whether an alias to an enclosing node remains in one of some nodes. -/
def itemsHaveEnclosing : List Node → Bool
  | [] => false
  | n :: rest => hasEnclosing n || itemsHaveEnclosing rest

/-- Whether an alias to an enclosing node remains in one of some entries. -/
def entriesHaveEnclosing : List (Node × Node) → Bool
  | [] => false
  | (k, v) :: rest => hasEnclosing k || hasEnclosing v || entriesHaveEnclosing rest

end

mutual

/-- The node with each alias to an enclosing node replaced by that node. -/
def unfoldIn (anchors : Anchors) : Node → Node
  | .scalar tag content => .scalar tag content
  | .sequence anchor tag items =>
    .sequence anchor tag (unfoldItems (anchored anchor (.sequence anchor tag items) anchors) items)
  | .mapping anchor tag entries =>
    .mapping anchor tag
      (unfoldEntries (anchored anchor (.mapping anchor tag entries) anchors) entries)
  | .enclosing name => ((anchors.find? (·.1 == name)).map (·.2)).getD (.enclosing name)

/-- Nodes with each alias to an enclosing node replaced by that node. -/
def unfoldItems (anchors : Anchors) : List Node → List Node
  | [] => []
  | n :: rest => unfoldIn anchors n :: unfoldItems anchors rest

/-- Entries with each alias to an enclosing node replaced by that node. -/
def unfoldEntries (anchors : Anchors) : List (Node × Node) → List (Node × Node)
  | [] => []
  | (k, v) :: rest => (unfoldIn anchors k, unfoldIn anchors v) :: unfoldEntries anchors rest

end

/-- The node with the aliases to enclosing nodes unfolded twice, which is as deep as a page tree that
ends can show. -/
def unfold (n : Node) : Node :=
  if n.hasEnclosing then unfoldIn [] (unfoldIn [] n) else n

mutual

/-- The height of a node: how many nodes stand above each other. -/
def height : Node → Nat
  | .scalar _ _ => 1
  | .sequence _ _ items => itemsHeight items + 1
  | .mapping _ _ entries => entriesHeight entries + 1
  | .enclosing _ => 1

/-- The greatest height of some nodes. -/
def itemsHeight : List Node → Nat
  | [] => 0
  | n :: rest => max (height n) (itemsHeight rest)

/-- The greatest height of the nodes of some entries. -/
def entriesHeight : List (Node × Node) → Nat
  | [] => 0
  | (k, v) :: rest => max (max (height k) (height v)) (entriesHeight rest)

end

end Node

end PageTree.Yaml
