import Undecorate.TypeTree.Basic

/-!
A store of nodes under construction. Nodes are numbered in the order they are made, are changed
in place and refer to each other by number; a number stands for the tree that hangs from it.
-/

namespace Undecorate

/-- A stored node with the numbers of its inner node and of its arguments. -/
structure StoredNode where
  node : Node
  inner : Option Nat := none
  args : List Nat := []

structure NodeStore where
  nodes : List StoredNode := []

namespace NodeStore

def size (s : NodeStore) : Nat := s.nodes.length

/-- Makes a node of the given kind, which takes the next number. -/
def make (s : NodeStore) (kind : Kind) : NodeStore :=
  { nodes := s.nodes ++ [{ node := { kind, serial := s.size } }] }

/-- Changes the attributes of node `i`. -/
def modify (s : NodeStore) (i : Nat) (f : Node → Node) : NodeStore :=
  { nodes := s.nodes.modify i fun n => { n with node := f n.node } }

def setInner (s : NodeStore) (i j : Nat) : NodeStore :=
  { nodes := s.nodes.modify i fun n => { n with inner := some j } }

def addArg (s : NodeStore) (i j : Nat) : NodeStore :=
  { nodes := s.nodes.modify i fun n => { n with args := n.args ++ [j] } }

mutual

/-- Makes the nodes of a tree, which keep the numbers that they get here: first its own, and then
those below it, each of which is tied to its place when all that belongs to it has been made. -/
def add (s : NodeStore) : TypeTree → NodeStore
  | .mk node inner args =>
    let made := (s.make node.kind).modify s.size fun n => { node with serial := n.serial }
    (made.addInner s.size inner).addArgs s.size args

def addInner (s : NodeStore) (i : Nat) : Option TypeTree → NodeStore
  | none => s
  | some t => (s.add t).setInner i s.size

def addArgs (s : NodeStore) (i : Nat) : List TypeTree → NodeStore
  | [] => s
  | t :: ts => ((s.add t).addArg i s.size).addArgs i ts

end

/-- The tree under node `i`, down to the given depth. -/
def treeWithin (s : NodeStore) : Nat → Nat → Option TypeTree
  | 0, _ => none
  | depth + 1, i =>
    s.nodes[i]?.map fun n =>
      .mk n.node (n.inner.bind (treeWithin s depth)) (n.args.filterMap (treeWithin s depth))

/-- The tree under node `i`. Without a cycle no path is longer than the store. -/
def tree? (s : NodeStore) (i : Nat) : Option TypeTree := s.treeWithin s.size i

end NodeStore

end Undecorate
