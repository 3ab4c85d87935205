import Undecorate.TypeTree.Store
import Undecorate.Proofs.Numbering

/-!
The order of a store is the order of the finished tree.

A tree is built in a store from the outside in: a node is made before the nodes below it, and is
tied to them when they are complete. So the nodes of a tree come to lie in the order of `walk`, and
where they are numbered in that order, as they are in what has been read, the numbers in the store
are the numbers of the tree.
-/

namespace Undecorate

open TypeTree

variable {s : NodeStore} {t : TypeTree} {before after : List StoredNode} {n : StoredNode}

/-- Each number is the one before it plus one, and the first is `first`. -/
def Consecutive (first : Nat) (ns : List Nat) : Prop := ns = List.range' first ns.length

lemma consecutive_cons {first i : Nat} {ns : List Nat} :
    Consecutive first (i :: ns) ↔ i = first ∧ Consecutive (first + 1) ns := by
  rw [Consecutive, List.length_cons, List.range'_succ, List.cons.injEq]
  rfl

lemma consecutive_append {first : Nat} {ns ms : List Nat} :
    Consecutive first (ns ++ ms) ↔
      Consecutive first ns ∧ Consecutive (first + ns.length) ms := by
  rw [Consecutive, List.length_append, ← List.range'_append_1]
  exact List.append_eq_append_iff_of_size_eq_left (by simp)

lemma Consecutive.serial_eq {first : Nat} (h : Consecutive first t.serials) :
    t.node.serial = first := by
  obtain ⟨node, inner, args⟩ := t
  rw [serials_mk] at h
  exact (consecutive_cons.1 h).1

/-- A node that refers to what is below it by number. -/
def StoredNode.of (t : TypeTree) : StoredNode :=
  { node := t.node
    inner := t.inner.map fun u => u.node.serial
    args := t.args.map fun u => u.node.serial }

namespace NodeStore

lemma modify_middle (f : StoredNode → StoredNode) :
    (before ++ n :: after).modify before.length f = before ++ f n :: after := by
  induction before with
  | nil => rfl
  | cons b before ih => exact congrArg (b :: ·) ih

/-- A node is made with the number that a reader who has made all nodes so far gives out next. -/
theorem make_of_issue {kind : Kind} {q : Qualifiers} {slot : Reading.Slot}
    {u v : Reading.State} (h : Reading.issue kind q u = .ok slot v) (hs : s.size = u.issued) :
    (s.make kind).size = v.issued ∧
      (s.make kind).nodes[slot.serial]? = some { node := { kind, serial := slot.serial } } := by
  rw [Reading.issue_eq] at h
  cases h
  rw [← hs]
  simp [make, size]

/-! ### Building -/

/-- The nodes of the tree are laid behind those in the store, in the order of `walk`. -/
def Appends (t : TypeTree) : Prop :=
  ∀ s : NodeStore, Consecutive s.size t.serials →
    (s.add t).nodes = s.nodes ++ t.walk.map StoredNode.of

lemma nodes_addInner {inner : Option TypeTree} (ht : ∀ t ∈ inner, Appends t)
    (hs : s.nodes = before ++ n :: after) (hn : n.inner = none)
    (hc : Consecutive s.size (inner.elim [] serials)) :
    (s.addInner before.length inner).nodes =
      before ++ { n with inner := inner.map fun u => u.node.serial } ::
        (after ++ (walkInner inner).map StoredNode.of) := by
  cases inner with
  | none => simp [addInner, walkInner, hs, ← hn]
  | some t =>
    have hadd : (s.add t).nodes = before ++ n :: (after ++ t.walk.map StoredNode.of) := by
      rw [ht t rfl s hc, hs, List.append_assoc, List.cons_append]
    rw [addInner, setInner, hadd, modify_middle, ← hc.serial_eq]
    rfl

lemma nodes_addArgs {args : List TypeTree} (ht : ∀ t ∈ args, Appends t)
    (hs : s.nodes = before ++ n :: after)
    (hc : Consecutive s.size (args.flatMap serials)) :
    (s.addArgs before.length args).nodes =
      before ++ { n with args := n.args ++ args.map fun u => u.node.serial } ::
        (after ++ (walkArgs args).map StoredNode.of) := by
  induction args generalizing s n after with
  | nil => simp [addArgs, walkArgs, hs]
  | cons t ts ih =>
    rw [List.flatMap_cons, consecutive_append] at hc
    obtain ⟨hfirst, hrest⟩ := hc
    have hadd : (s.add t).nodes = before ++ n :: (after ++ t.walk.map StoredNode.of) := by
      rw [ht t List.mem_cons_self s hfirst, hs, List.append_assoc, List.cons_append]
    have hsize : ((s.add t).addArg before.length s.size).size = s.size + t.serials.length := by
      simp [size, addArg, hadd, hs, serials]
      omega
    rw [addArgs, ih (fun u hu => ht u (List.mem_cons_of_mem _ hu))
      (by rw [addArg, hadd, modify_middle]) (by rwa [hsize]), ← hfirst.serial_eq]
    simp [walkArgs]

lemma nodes_made {node : Node} (h : node.serial = s.size) :
    ((s.make node.kind).modify s.size fun n => { node with serial := n.serial }).nodes =
      s.nodes ++ [{ node := node }] := by
  rw [modify, make, size, modify_middle, ← size, ← h]

/-- **The order of the store is the order of `walk`**: where the numbers of a tree are those that
come next, its nodes are laid behind the others in the order of `walk`, as they are in the tree. -/
theorem nodes_add (t : TypeTree) : Appends t := by
  induction t using TypeTree.induction with
  | mk node inner args hinner hargs =>
    intro s hc
    rw [serials_mk, consecutive_cons, consecutive_append] at hc
    obtain ⟨hnode, hbelow, hbehind⟩ := hc
    obtain ⟨made, hmade, hadd⟩ : ∃ made : NodeStore, made.nodes = s.nodes ++ [{ node := node }] ∧
        s.add (.mk node inner args) = (made.addInner s.size inner).addArgs s.size args :=
      ⟨_, nodes_made hnode, rfl⟩
    have hin := nodes_addInner hinner hmade rfl
      (by rwa [size, hmade, List.length_append, List.length_singleton])
    have hlast : (made.addInner s.size inner).size =
        s.size + 1 + (inner.elim [] serials).length := by
      rw [size, size, hin, ← map_walkInner]
      simp [Nat.add_assoc, Nat.add_comm]
    have hall := nodes_addArgs hargs hin (by rwa [← size, hlast])
    rw [hadd, size, hall, walk]
    simp [StoredNode.of, TypeTree.node, TypeTree.inner, TypeTree.args]

/-! ### Reading back -/

/-- A tree whose nodes are all found under their numbers is what hangs from the first. -/
lemma treeWithin_of_found (ht : ∀ u ∈ t.walk, s.nodes[u.node.serial]? = some (.of u))
    {depth : Nat} (hd : t.walk.length ≤ depth) :
    s.treeWithin depth t.node.serial = some t := by
  induction t using TypeTree.induction generalizing depth with
  | mk node inner args hinner hargs =>
    rw [walk, List.length_cons, List.length_append] at hd
    obtain _ | depth := depth
    · omega
    have hbelow : (inner.map fun u => u.node.serial).bind (s.treeWithin depth) = inner := by
      cases inner with
      | none => rfl
      | some u =>
        refine hinner u rfl (fun v hv => ht v (mem_walk_of_inner rfl hv)) ?_
        rw [walkInner] at hd
        omega
    have hbehind : ∀ a ∈ args, s.treeWithin depth a.node.serial = some a := by
      intro a ha
      refine hargs a ha (fun v hv => ht v (mem_walk_of_arg ha hv)) ?_
      have := length_walk_le_of_mem ha
      omega
    have hall : (args.map fun u => u.node.serial).filterMap (s.treeWithin depth) = args := by
      rw [List.filterMap_map]
      exact (List.filterMap_congr hbehind).trans List.filterMap_some
    rw [treeWithin, ht _ (self_mem_walk _), Option.map_some, StoredNode.of]
    exact congrArg some (congrArg₂ (TypeTree.mk node) hbelow hall)

lemma serial_of_getElem? (ht : Consecutive 0 t.serials) {u : TypeTree} {i : Nat}
    (hu : t.walk[i]? = some u) : u.node.serial = i := by
  have hi : t.serials[i]? = some u.node.serial := by
    rw [serials, List.getElem?_map, hu]
    rfl
  rw [ht] at hi
  obtain ⟨_, hi⟩ := List.getElem?_eq_some_iff.1 hi
  rw [← hi, List.getElem_range']
  omega

/-- A tree that was built in an empty store is read back from its first node. -/
theorem tree?_add (ht : Consecutive 0 t.serials) : (add {} t).tree? 0 = some t := by
  have hnodes : (add {} t).nodes = t.walk.map StoredNode.of := nodes_add t {} ht
  rw [tree?, size, hnodes, List.length_map, ← ht.serial_eq]
  refine treeWithin_of_found (fun u hu => ?_) le_rfl
  obtain ⟨i, hi⟩ := List.mem_iff_getElem?.1 hu
  rw [hnodes, List.getElem?_map, serial_of_getElem? ht hi, hi]
  rfl

end NodeStore

/-- **A store numbers nodes as a reader does**: the symbol that a decoder has read, built in an
empty store, takes as many nodes as the reader has numbered. They lie there in the order of `walk`,
each under the number that the reader has given it, and the whole tree hangs from the first. -/
theorem store_of_parse {d : Decoder} {t : Text} {sym : Symbol} (h : (d.parse t).1 = .ok sym) :
    let built := NodeStore.add {} sym.type
    built.size = (d.parse t).2.state.issued ∧
      built.nodes.map StoredNode.node = sym.type.walk.map TypeTree.node ∧
      (∀ (i : Nat) (n : StoredNode), built.nodes[i]? = some n → n.node.serial = i) ∧
      built.tree? 0 = some sym.type := by
  intro built
  have hserials := serials_eq_range h
  have hnumbers : Consecutive 0 sym.type.serials := by
    rw [Consecutive, hserials, List.length_range, List.range_eq_range']
  have hnodes : built.nodes = sym.type.walk.map StoredNode.of :=
    NodeStore.nodes_add sym.type {} hnumbers
  refine ⟨?_, ?_, fun i n hn => ?_, NodeStore.tree?_add hnumbers⟩
  · have hlength := congrArg List.length hserials
    rwa [serials, List.length_map, List.length_range, ← List.length_map, ← hnodes] at hlength
  · rw [hnodes, List.map_map]
    rfl
  · rw [hnodes, List.getElem?_map, Option.map_eq_some_iff] at hn
    obtain ⟨u, hu, rfl⟩ := hn
    exact NodeStore.serial_of_getElem? hnumbers hu

end Undecorate
