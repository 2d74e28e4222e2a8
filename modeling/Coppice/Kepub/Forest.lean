import Mathlib.Data.List.Perm.Subperm
import Coppice.Kepub.Arena

/-!
# The arena is an ordered forest

The same operations on payloads and child lists. Every sequence of arena operations that
keeps to their preconditions runs without a panic, and the links it leaves are those of the
lists.
-/

namespace Coppice.Kepub

open Coppice.Std List

variable {arena : Arena} {parent id source : NodeId}

section Patches

namespace Arena

variable {payloads : List NodeKind} {links : Links NodeId} {child sibling target last : NodeId}
  {rest : List NodeId}

/-- Links lead to nodes of the arena. -/
structure Bounded (size : Nat) (links : Links NodeId) : Prop where
  parent : ∀ id link, links.parent id = some link → link < size
  first : ∀ id link, links.first id = some link → link < size
  last : ∀ id link, links.last id = some link → link < size
  prev : ∀ id link, links.prev id = some link → link < size
  next : ∀ id link, links.next id = some link → link < size

theorem appendNodeId_patches (bounded : Bounded payloads.length links)
    (present : child < payloads.length) (there : parent < payloads.length)
    (free : links.parent child = none) :
    Patches payloads links (·.appendNodeId parent child) (links.append parent child) := by
  rintro arena rfl rfl
  obtain ⟨childNode, foundChild, childParent, -⟩ := node_of_lt present
  obtain ⟨parentNode, foundParent, -, -, last, -⟩ := node_of_lt there
  rw [free] at childParent
  simp only [appendNodeId, foundChild, foundParent, childParent, last, Option.bind_eq_bind,
    Option.bind_some, Option.isSome_none, Bool.false_eq_true, if_false]
  exact (setParent_patches _ present).bind ((setPrev_patches _ present).bind
    ((setNext_patches _ present).bind ((setNextOrFirst_patches there (bounded.last parent)).bind
      (setLastChild_patches _ there)))) arena rfl rfl

theorem detach_patches (bounded : Bounded payloads.length links)
    (present : child < payloads.length) (attached : links.parent child = some parent) :
    Patches payloads links (·.detach child) (links.detach parent child) := by
  rintro arena rfl rfl
  obtain ⟨node, found, up, -, -, prev, next, -⟩ := node_of_lt present
  have there := bounded.parent child parent attached
  simp only [detach, found, up, attached, prev, next, Option.bind_eq_bind, Option.bind_some]
  exact (setNextOrFirst_patches there (bounded.prev child)).bind
    ((setPrevOrLast_patches there (bounded.next child)).bind ((setParent_patches _ present).bind
      ((setPrev_patches _ present).bind (setNext_patches _ present)))) arena rfl rfl

theorem insertBeforeDetached_patches (bounded : Bounded payloads.length links)
    (present : child < payloads.length) (there : sibling < payloads.length)
    (attached : links.parent sibling = some parent) (free : links.parent child = none) :
    Patches payloads links (·.insertBeforeDetached sibling child)
      (links.insertBefore parent sibling child) := by
  rintro arena rfl rfl
  obtain ⟨childNode, foundChild, childParent, -⟩ := node_of_lt present
  obtain ⟨node, found, up, -, -, prev, -⟩ := node_of_lt there
  have inside := bounded.parent sibling parent attached
  rw [free] at childParent
  simp only [insertBeforeDetached, foundChild, found, childParent, up, attached, prev,
    Option.bind_eq_bind, Option.bind_some, Option.isSome_none, Bool.false_eq_true, if_false]
  exact (setParent_patches _ present).bind ((setPrev_patches _ present).bind
    ((setNext_patches _ present).bind ((setPrev_patches _ there).bind
      (setNextOrFirst_patches inside (bounded.prev sibling))))) arena rfl rfl

/-- The loop over a run of siblings ends at the last of them. -/
theorem adoptFrom_patches {fuel : Nat} (enough : rest.length < fuel) (nodup : (id :: rest).Nodup)
    (final : (id :: rest).getLast? = some last) (inside : ∀ x ∈ id :: rest, x < payloads.length)
    (chain : (id :: rest).IsChain fun x y => links.next x = some y) :
    Patches payloads links (adoptFrom target last fuel · id)
      { links with
        parent := fun x => if x ∈ id :: rest then some target else links.parent x } := by
  induction rest generalizing id fuel links with
  | nil =>
    obtain ⟨fuel, rfl⟩ := Nat.exists_eq_succ_of_ne_zero (Nat.ne_of_gt enough)
    obtain rfl : id = last := by simpa using final
    intro arena kept linked
    obtain ⟨next, stored, same, left⟩ := setParent_patches (some target) (inside id (by simp)) arena
      kept linked
    exact ⟨next, by simp [adoptFrom, stored], same, by simpa using left⟩
  | cons second rest ih =>
    obtain ⟨fuel, rfl⟩ := Nat.exists_eq_succ_of_ne_zero (Nat.ne_of_gt (Nat.zero_lt_of_lt enough))
    obtain ⟨following, chain⟩ := isChain_cons_cons.mp chain
    have notLast : id ≠ last := by
      rintro rfl
      exact not_pair_of_last nodup final ⟨[], rest, rfl⟩
    refine (setParent_patches (some target) (inside id (by simp))).bind ?_
    rintro arena rfl linked
    obtain ⟨node, found, -, -, -, -, next, -⟩ := node_of_lt (inside id (by simp))
    rw [linked] at next
    simp only [notLast, if_false, found, next, following, Option.bind_eq_bind, Option.bind_some]
    obtain ⟨final, ran, kept, left⟩ := ih (Nat.lt_of_succ_lt_succ enough) (nodup_cons.mp nodup).2
      (by rwa [getLast?_cons_cons] at final) (fun x member => inside x (mem_cons_of_mem _ member))
      (by exact chain) arena rfl linked
    refine ⟨final, ran, kept, left.trans ?_⟩
    ext1 <;> funext x <;> simp only [mem_cons]
    by_cases same : x = id <;> simp [same]

theorem moveChildren_patches {forest : Forest NodeId} {first : NodeId}
    (linked : Linked links forest) (bounded : Bounded payloads.length links)
    (here : source < payloads.length) (there : target < payloads.length)
    (small : (forest source).length ≤ payloads.length)
    (inside : ∀ x ∈ forest source, x < payloads.length) (apart : source ≠ target)
    (head : (forest source).head? = some first) (final : (forest source).getLast? = some last) :
    Patches payloads links (·.moveChildren source target)
      (links.moveChildren source target (forest source) first last) := by
  obtain ⟨rest, shape⟩ := head?_eq_some_iff.mp head
  have firstInside : first < payloads.length := inside first (by simp [shape])
  have lastInside : last < payloads.length := inside last (mem_of_getLast? final)
  rintro arena rfl rfl
  obtain ⟨node, found, -, firstField, lastField, -⟩ := node_of_lt here
  rw [linked.first, head] at firstField
  rw [linked.last, final] at lastField
  simp only [moveChildren, apart, if_false, found, firstField, lastField, Option.bind_eq_bind,
    Option.bind_some]
  refine (setFirstChild_patches _ here).bind ((setLastChild_patches _ here).bind ?_) arena rfl rfl
  intro emptied kept left
  have length : emptied.nodes.length = arena.payloads.length := by rw [← kept, payloads, length_map]
  dsimp only
  rw [length]
  refine (adoptFrom_patches (by rw [shape] at small; exact small) (shape ▸ linked.nodup source)
    (shape ▸ final) (fun x member => inside x (shape ▸ member))
      (shape ▸ linked.chain source)).bind ?_
    emptied kept left
  intro adopted kept left
  obtain ⟨targetNode, foundTarget, -, -, targetLast, -⟩ := node_of_lt (kept.symm ▸ there)
  have previous : targetNode.lastChild = arena.links.last target := by
    rw [targetLast, left]
    simp [apart.symm]
  simp only [foundTarget, previous, Option.bind_some]
  rw [shape]
  exact (setNextOrFirst_patches there (bounded.last target)).bind
    ((setPrev_patches _ firstInside).bind ((setNext_patches _ lastInside).bind
      (setLastChild_patches _ there))) adopted kept left

theorem alloc_ok (room : arena.payloads.length < 2 ^ 32) (data : NodeKind) :
    ∃ next, arena.alloc data = some (arena.payloads.length, next) ∧
      next.payloads = arena.payloads ++ [data] ∧ next.links = arena.links := by
  rw [payloads, length_map] at room ⊢
  refine ⟨_, if_pos room, by simp [payloads], ?_⟩
  ext1 <;> funext x <;> simp only [links, node, getElem?_append]
  all_goals
    split
    · rfl
    · rename_i beyond
      rw [getElem?_eq_none (Nat.le_of_not_lt beyond)]
      cases x - arena.nodes.length <;> rfl

theorem setData_ok (present : id < arena.payloads.length) (data : NodeKind) :
    ∃ next, arena.setData id data = some next ∧ next.payloads = arena.payloads.set id data ∧
      next.links = arena.links := by
  rw [payloads, length_map] at present
  refine ⟨_, if_pos present, ?_, ?_⟩
  · refine ext_getElem? fun other => ?_
    simp only [payloads, getElem?_map, getElem?_modify, getElem?_set]
    split
    · rename_i same
      subst same
      simp [present]
    · simp
  · ext1 <;> funext x <;> simp only [links, node, getElem?_modify]
    all_goals
      split
      · cases arena.nodes[x]? <;> rfl
      · simp

/-- The loop over the `next` links gives the list. -/
theorem childIdsFrom_eq {fuel : Nat} (enough : rest.length ≤ fuel)
    (inside : ∀ x ∈ rest, x < arena.payloads.length)
    (chain : rest.IsChain fun x y => arena.links.next x = some y)
    (ends : ∀ x, rest.getLast? = some x → arena.links.next x = none) :
    arena.childIdsFrom fuel rest.head? = some rest := by
  induction rest generalizing fuel with
  | nil => cases fuel <;> rfl
  | cons id rest ih =>
    obtain ⟨fuel, rfl⟩ := Nat.exists_eq_succ_of_ne_zero (Nat.ne_of_gt (Nat.zero_lt_of_lt enough))
    obtain ⟨node, found, -, -, -, -, next, -⟩ := node_of_lt (inside id (by simp))
    have following : node.next = rest.head? := by
      cases rest with
      | nil => exact next.trans (ends id rfl)
      | cons second rest => exact next.trans (isChain_cons_cons.mp chain).1
    have later := ih (Nat.le_of_succ_le_succ enough) (forall_mem_cons.1 inside).2 chain.tail
      fun x last => ends x (by rw [getLast?_cons, last]; rfl)
    simp [childIdsFrom, found, following, later]

end Arena

end Patches

section Tree

/-- An ordered forest with payloads: the abstract document. -/
structure Tree where
  payloads : List NodeKind
  children : Forest NodeId

namespace Tree

variable (tree : Tree)

def new : Tree := ⟨[.document], fun _ => []⟩

/-- The node whose list has the child. -/
def parentOf (child : NodeId) : Option NodeId :=
  (List.range tree.payloads.length).find? fun parent => child ∈ tree.children parent

/-- The child before this one. -/
def previousOf (child : NodeId) : Option NodeId := do
  let parent ← tree.parentOf child
  ((tree.children parent).takeWhile (· ≠ child)).getLast?

def textAt (id : Option NodeId) : Option (NodeId × String) := do
  let id ← id
  match ← tree.payloads[id]? with
  | .text contents => some (id, contents)
  | _ => none

/-- Text joins the text node before its place, or becomes a node of its own there. -/
def joinText (previous : Option NodeId) (text : String) (place : NodeId → Forest NodeId) : Tree :=
  match tree.textAt previous with
  | some (id, contents) => { tree with payloads := tree.payloads.set id (.text (contents ++ text)) }
  | none => ⟨tree.payloads ++ [.text text], place tree.payloads.length⟩

def append (parent : NodeId) : NodeOrText → Tree
  | .text text =>
    tree.joinText (tree.children parent).getLast? text (tree.children.append parent)
  | .node child => { tree with children := tree.children.append parent child }

def appendBeforeSibling (sibling : NodeId) : NodeOrText → Tree
  | .text text =>
    tree.joinText (tree.previousOf sibling) text (tree.children.insertBefore sibling)
  | .node child =>
    { tree with
      children := (tree.children.remove child : Forest NodeId).insertBefore sibling child }

end Tree

/-- One operation on the document. -/
inductive ArenaOp where
  | create (data : NodeKind)
  | append (parent : NodeId) (child : NodeOrText)
  | detach (target : NodeId)
  | insertBefore (sibling child : NodeId)
  | appendBeforeSibling (sibling : NodeId) (child : NodeOrText)
  | appendBasedOnParentNode (element prevElement : NodeId) (child : NodeOrText)
  | moveChildren (source target : NodeId)

namespace ArenaOp

def run (arena : Arena) : ArenaOp → Option Arena
  | create data => do
      let (_, arena) ← arena.alloc data
      some arena
  | append parent child => arena.append parent child
  | detach target => arena.detach target
  | insertBefore sibling child => arena.insertBeforeDetached sibling child
  | appendBeforeSibling sibling child => arena.appendBeforeSibling sibling child
  | appendBasedOnParentNode element prevElement child =>
    arena.appendBasedOnParentNode element prevElement child
  | moveChildren source target => arena.moveChildren source target

/-- The operation on payloads and lists. -/
def apply (tree : Tree) : ArenaOp → Tree
  | create data => { tree with payloads := tree.payloads ++ [data] }
  | append parent child => tree.append parent child
  | detach target => { tree with children := tree.children.remove target }
  | insertBefore sibling child =>
    { tree with children := tree.children.insertBefore sibling child }
  | appendBeforeSibling sibling child => tree.appendBeforeSibling sibling child
  | appendBasedOnParentNode element prevElement child =>
    if (tree.parentOf element).isSome then tree.appendBeforeSibling element child
    else tree.append prevElement child
  | moveChildren source target =>
    if source = target then tree
    else { tree with children := tree.children.moveChildren source target }

end ArenaOp

namespace Tree

variable (tree : Tree)

/-- What `append` asks for: a node to append has no parent and is not above the new one. -/
def AllowsAppend (parent : NodeId) : NodeOrText → Prop
  | .text _ => parent < tree.payloads.length ∧ tree.payloads.length < 2 ^ 32
  | .node child => parent < tree.payloads.length ∧ child < tree.payloads.length ∧
      (∀ other, child ∉ tree.children other) ∧ ¬ tree.children.Below child parent

/-- A sibling to insert before has a parent, which is not below the new child. -/
def AllowsBefore (sibling child : NodeId) : Prop :=
  child < tree.payloads.length ∧
    ∃ parent, sibling ∈ tree.children parent ∧ ¬ tree.children.Below child parent

def AllowsBeforeSibling (sibling : NodeId) : NodeOrText → Prop
  | .text _ => (∃ parent, sibling ∈ tree.children parent) ∧ tree.payloads.length < 2 ^ 32
  | .node child => child ≠ sibling ∧ tree.AllowsBefore sibling child

/-- The preconditions of an operation. -/
def Allows : ArenaOp → Prop
  | .create _ => tree.payloads.length < 2 ^ 32
  | .append parent child => tree.AllowsAppend parent child
  | .detach target => target < tree.payloads.length
  | .insertBefore sibling child =>
    tree.AllowsBefore sibling child ∧ ∀ other, child ∉ tree.children other
  | .appendBeforeSibling sibling child => tree.AllowsBeforeSibling sibling child
  | .appendBasedOnParentNode element prevElement child =>
    element < tree.payloads.length ∧
      if (tree.parentOf element).isSome then tree.AllowsBeforeSibling element child
      else tree.AllowsAppend prevElement child
  | .moveChildren source target =>
    source < tree.payloads.length ∧ target < tree.payloads.length ∧
      (source ≠ target → ∀ child ∈ tree.children source, ¬ tree.children.Below child target)

end Tree

/-- The arena holds the tree. -/
structure Represents (arena : Arena) (tree : Tree) : Prop where
  payloads : arena.payloads = tree.payloads
  linked : Linked arena.links tree.children
  inside : ∀ parent child, child ∈ tree.children parent →
    parent < tree.payloads.length ∧ child < tree.payloads.length
  acyclic : tree.children.Acyclic

namespace Represents

variable {tree : Tree}

theorem new : Represents Arena.new Tree.new := by
  refine ⟨rfl, ?_, nofun, ?_⟩
  · have empty : Arena.new.links = ⟨fun _ => none, fun _ => none, fun _ => none, fun _ => none,
        fun _ => none⟩ := by
      ext1 <;> funext x <;> cases x <;> rfl
    rw [empty]
    exact ⟨by simp [Tree.new], fun _ => rfl, fun _ => rfl, fun _ => nodup_nil,
      by simp [Tree.new, Forest.Adjacent], by simp [Tree.new, Forest.Adjacent]⟩
  · intro node cycle
    cases cycle with
    | single edge | tail _ edge => cases edge

variable (represents : Represents arena tree) {child : NodeId}
include represents

theorem bounded : Arena.Bounded arena.payloads.length arena.links := by
  obtain ⟨payloads, linked, inside, -⟩ := represents
  rw [← payloads] at inside
  refine ⟨fun id link up => (inside link id (linked.parent.mp up)).1, ?_, ?_, ?_, ?_⟩
  · intro id link first
    exact (inside id link (mem_of_mem_head? ((linked.first id).symm.trans first))).2
  · intro id link last
    exact (inside id link (mem_of_getLast? ((linked.last id).symm.trans last))).2
  · intro id link prev
    obtain ⟨parent, pair⟩ := linked.prev.mp prev
    exact (inside parent link (mem_of_adjacent pair).1).2
  · intro id link next
    obtain ⟨parent, pair⟩ := linked.next.mp next
    exact (inside parent link (mem_of_adjacent pair).2).2

theorem children_length_le (id : NodeId) :
    (tree.children id).length ≤ arena.payloads.length := by
  have covered : tree.children id ⊆ List.range tree.payloads.length :=
    fun child member => mem_range.mpr (represents.inside id child member).2
  have length := (subperm_of_subset (represents.linked.nodup id) covered).length_le
  rwa [length_range, ← represents.payloads] at length

theorem childIds
    (present : id < tree.payloads.length) : arena.childIds id = some (tree.children id) := by
  have small := represents.children_length_le id
  obtain ⟨payloads, linked, inside, -⟩ := represents
  rw [← payloads] at inside present
  obtain ⟨node, found, -, first, -⟩ := Arena.node_of_lt present
  rw [Arena.payloads, length_map] at small
  unfold Arena.childIds
  rw [found]
  simp only [Option.bind_eq_bind, Option.bind_some, first, linked.first]
  exact Arena.childIdsFrom_eq small (fun x member => (inside id x member).2) (linked.chain id)
    fun x last => Option.eq_none_iff_forall_ne_some.mpr fun y next =>
      linked.not_adjacent_last last (linked.next.mp next)

theorem parentOf_eq (child : NodeId) : tree.parentOf child = arena.links.parent child := by
  cases up : arena.links.parent child with
  | none =>
    refine find?_eq_none.mpr fun parent _ member => ?_
    simp [represents.linked.parent.mpr (of_decide_eq_true member)] at up
  | some parent =>
    have member := represents.linked.parent.mp up
    cases found : tree.parentOf child with
    | none =>
      have absent := find?_eq_none.mp found parent
        (mem_range.mpr (represents.inside parent child member).1)
      exact absurd (decide_eq_true member) absent
    | some other =>
      have hit := find?_some (p := fun parent => decide (child ∈ tree.children parent)) found
      have member' : child ∈ tree.children other := of_decide_eq_true hit
      rw [represents.linked.unique member' member]

theorem previousOf_eq (member : child ∈ tree.children parent) :
    tree.previousOf child = arena.links.prev child := by
  obtain ⟨before, after, shape, notBefore, -, prev, -⟩ := represents.linked.split member
  have up := represents.linked.parent.mpr member
  have front : ∀ x ∈ before, decide (x ≠ child) = true := by
    intro x earlier
    exact decide_eq_true fun same => notBefore (same ▸ earlier)
  unfold Tree.previousOf
  rw [represents.parentOf_eq, up, prev]
  simp only [Option.bind_eq_bind, Option.bind_some]
  rw [shape, takeWhile_append_of_pos front]
  simp

theorem textAt_eq (link : Option NodeId) : arena.textAt link = tree.textAt link := by
  have data : ∀ id, tree.payloads[id]? = (arena.node id).map Node.data := by
    intro id
    rw [← represents.payloads]
    exact getElem?_map
  cases link with
  | none => rfl
  | some id =>
    simp only [Arena.textAt, Tree.textAt, Option.bind_eq_bind, Option.bind_some, data]
    cases arena.node id <;> rfl

/-- Patched links that put nodes under `parent`, none of them above it. -/
theorem of_grafts {operation : Arena → Option Arena} {links : Links NodeId}
    {children : Forest NodeId} {grafted : NodeId → Prop}
    (patches : Arena.Patches arena.payloads arena.links operation links)
    (linked : Linked links children) (there : parent < tree.payloads.length)
    (apart : ∀ child, grafted child → ¬ tree.children.Below child parent)
    (present : ∀ child, grafted child → child < tree.payloads.length)
    (members : ∀ node child, child ∈ children node →
      child ∈ tree.children node ∨ (node = parent ∧ grafted child)) :
    ∃ next, operation arena = some next ∧ Represents next { tree with children } := by
  obtain ⟨next, stored, kept, same⟩ := patches arena rfl rfl
  refine ⟨next, stored, kept.trans represents.payloads, same ▸ linked, ?_,
    represents.acyclic.extend apart members⟩
  intro node child member
  rcases members node child member with old | ⟨rfl, new⟩
  · exact represents.inside node child old
  · exact ⟨there, present child new⟩

/-- A new node stands alone. -/
theorem alloc (room : tree.payloads.length < 2 ^ 32) (data : NodeKind) :
    ∃ next, arena.alloc data = some (tree.payloads.length, next) ∧
      Represents next { tree with payloads := tree.payloads ++ [data] } := by
  obtain ⟨payloads, linked, inside, acyclic⟩ := represents
  rw [← payloads] at room ⊢
  obtain ⟨next, stored, grown, same⟩ := Arena.alloc_ok room data
  refine ⟨next, stored, grown, same ▸ linked, ?_, acyclic⟩
  intro parent child member
  have both := inside parent child member
  rw [payloads, length_append]
  exact ⟨Nat.lt_add_right _ both.1, Nat.lt_add_right _ both.2⟩

theorem setData (present : id < tree.payloads.length) (data : NodeKind) :
    ∃ next, arena.setData id data = some next ∧
      Represents next { tree with payloads := tree.payloads.set id data } := by
  obtain ⟨payloads, linked, inside, acyclic⟩ := represents
  rw [← payloads] at present
  obtain ⟨next, stored, changed, same⟩ := Arena.setData_ok present data
  refine ⟨next, stored, by rw [changed, payloads], same ▸ linked, ?_, acyclic⟩
  simpa using inside

theorem appendNodeId (allowed : tree.AllowsAppend parent (.node child)) :
    ∃ next, arena.appendNodeId parent child = some next ∧
      Represents next (tree.append parent (.node child)) := by
  obtain ⟨there, present, free, apart⟩ := allowed
  have loose := represents.linked.parent_none free
  have patches := Arena.appendNodeId_patches represents.bounded
    (represents.payloads ▸ present) (represents.payloads ▸ there) loose
  have members : ∀ node x, x ∈ tree.children.append parent child node →
      x ∈ tree.children node ∨ (node = parent ∧ x = child) := by
    intro node x member
    by_cases same : node = parent
    · subst same
      have listed : x ∈ tree.children node ++ [child] := by
        simpa [Forest.append] using member
      rcases mem_append.mp listed with old | new
      · exact .inl old
      · exact .inr ⟨rfl, mem_singleton.mp new⟩
    · simpa [Forest.append, same] using member
  exact represents.of_grafts patches (represents.linked.append free) there
    (fun x (same : x = child) => same ▸ apart) (fun x same => same ▸ present) members

theorem detach (present : target < tree.payloads.length) :
    ∃ next, arena.detach target = some next ∧
      Represents next { tree with children := tree.children.remove target } := by
  cases up : arena.links.parent target with
  | none =>
    have free : ∀ parent, target ∉ tree.children parent := fun parent member => by
      simp [represents.linked.parent.mpr member] at up
    obtain ⟨node, found, parent, -⟩ := Arena.node_of_lt (represents.payloads ▸ present :
      target < arena.payloads.length)
    have unchanged : tree.children.remove target = tree.children := by
      funext parent
      exact erase_of_not_mem (free parent)
    refine ⟨arena, ?_, ?_⟩
    · simp [Arena.detach, found, parent, up]
    · rw [unchanged]
      exact represents
  | some parent =>
    have member := represents.linked.parent.mp up
    have patches := Arena.detach_patches represents.bounded (represents.payloads ▸ present) up
    exact represents.of_grafts patches (represents.linked.detach member)
      (represents.inside parent target member).1 (fun _ (none : False) => none.elim) nofun
      fun node x member => .inl (mem_of_mem_erase member)

theorem insertBeforeDetached
    (allowed : tree.AllowsBefore sibling child) (free : ∀ other, child ∉ tree.children other) :
    ∃ next, arena.insertBeforeDetached sibling child = some next ∧
      Represents next { tree with children := tree.children.insertBefore sibling child } := by
  obtain ⟨present, parent, member, apart⟩ := allowed
  have loose := represents.linked.parent_none free
  have patches := Arena.insertBeforeDetached_patches represents.bounded
    (represents.payloads ▸ present)
      (represents.payloads ▸ (represents.inside parent sibling member).2)
    (represents.linked.parent.mpr member) loose
  have members : ∀ node x, x ∈ tree.children.insertBefore sibling child node →
      x ∈ tree.children node ∨ (node = parent ∧ x = child) := by
    intro node x inserted
    rcases mem_insertBefore inserted with old | ⟨there, same⟩
    · exact .inl old
    · exact .inr ⟨represents.linked.unique there member, same⟩
  exact represents.of_grafts patches (represents.linked.insertBefore member free)
    (represents.inside parent sibling member).1 (fun x (same : x = child) => same ▸ apart)
    (fun x same => same ▸ present) members

/-- A node just made is above nothing but itself. -/
theorem not_below_new {node : NodeId} (there : node < tree.payloads.length) :
    ¬ tree.children.Below tree.payloads.length node := by
  intro below
  rcases Relation.ReflTransGen.cases_head below with same | ⟨child, edge, -⟩
  · exact absurd (same ▸ there) (Nat.lt_irrefl _)
  · exact absurd (represents.inside _ child edge).1 (Nat.lt_irrefl _)

theorem new_free (parent : NodeId) : tree.payloads.length ∉ tree.children parent :=
  fun member => absurd (represents.inside parent _ member).2 (Nat.lt_irrefl _)

/-- Text joins the node before its place, or a new node is put there. -/
theorem joinText {previous : Option NodeId} {text : String}
    {place : NodeId → Forest NodeId} (put : Arena → NodeId → Option Arena)
    (room : tree.payloads.length < 2 ^ 32)
    (placed : ∀ grown : Arena,
      Represents grown { tree with payloads := tree.payloads ++ [.text text] } →
      ∃ next, put grown tree.payloads.length = some next ∧
        Represents next ⟨tree.payloads ++ [.text text], place tree.payloads.length⟩) :
    ∃ next, (match arena.textAt previous with
        | some (id, contents) => arena.setData id (.text (contents ++ text))
        | none => do
            let (child, arena) ← arena.alloc (.text text)
            put arena child) = some next ∧
      Represents next (tree.joinText previous text place) := by
  unfold Tree.joinText
  rw [represents.textAt_eq]
  cases found : tree.textAt previous with
  | some entry =>
    obtain ⟨id, contents⟩ := entry
    have present : id < tree.payloads.length := by
      unfold Tree.textAt at found
      cases previous with
      | none => cases found
      | some other =>
        cases data : tree.payloads[other]? with
        | none => simp [data] at found
        | some kind =>
          have listed := (List.getElem?_eq_some_iff.mp data).1
          cases kind <;> simp_all
    exact represents.setData present _
  | none =>
    obtain ⟨grown, stored, represents'⟩ := represents.alloc room (.text text)
    obtain ⟨next, put, represents''⟩ := placed grown represents'
    exact ⟨next, by simp [stored, put], represents''⟩

theorem append {child : NodeOrText} (allowed : tree.AllowsAppend parent child) :
    ∃ next, arena.append parent child = some next ∧ Represents next (tree.append parent child) := by
  cases child with
  | node child => exact represents.appendNodeId allowed
  | text text =>
    obtain ⟨there, room⟩ := allowed
    obtain ⟨node, found, -, -, last, -⟩ := Arena.node_of_lt (represents.payloads ▸ there :
      parent < arena.payloads.length)
    have last' : node.lastChild = (tree.children parent).getLast? :=
      last.trans (represents.linked.last parent)
    simp only [Arena.append, Arena.appendText, found, last', Option.bind_eq_bind, Option.bind_some,
      Tree.append]
    refine represents.joinText (fun arena child => arena.appendNodeId parent child) room ?_
    intro grown represents'
    refine represents'.appendNodeId ⟨?_, ?_, represents.new_free, represents.not_below_new there⟩
    · simp only [length_append, length_singleton]
      exact Nat.lt_succ_of_lt there
    · simp

theorem appendBeforeSibling {child : NodeOrText}
    (allowed : tree.AllowsBeforeSibling sibling child) :
    ∃ next, arena.appendBeforeSibling sibling child = some next ∧
      Represents next (tree.appendBeforeSibling sibling child) := by
  cases child with
  | node child =>
    obtain ⟨different, present, parent, member, apart⟩ := allowed
    obtain ⟨between, detached, represents'⟩ := represents.detach present
    have free : ∀ other, child ∉ (tree.children.remove child : Forest NodeId) other :=
      fun other => (represents.linked.nodup other).not_mem_erase
    have still : sibling ∈ (tree.children.remove child : Forest NodeId) parent :=
      (mem_erase_of_ne (Ne.symm different)).mpr member
    have apart' : ¬ Forest.Below (tree.children.remove child) child parent := by
      intro below
      exact apart
        (Relation.ReflTransGen.mono (fun _ _ edge => mem_of_mem_erase edge) _ _ below)
    obtain ⟨next, inserted, represents''⟩ :=
      represents'.insertBeforeDetached ⟨present, parent, still, apart'⟩ free
    exact ⟨next, by simp [Arena.appendBeforeSibling, Arena.appendBeforeNode, detached, inserted],
      represents''⟩
  | text text =>
    obtain ⟨⟨parent, member⟩, room⟩ := allowed
    have there := (represents.inside parent sibling member).2
    obtain ⟨node, found, -, -, -, prev, -⟩ := Arena.node_of_lt (represents.payloads ▸ there :
      sibling < arena.payloads.length)
    have prev' : node.prev = tree.previousOf sibling :=
      prev.trans (represents.previousOf_eq member).symm
    simp only [Arena.appendBeforeSibling, Arena.appendBeforeText, found, prev',
      Option.bind_eq_bind, Option.bind_some, Tree.appendBeforeSibling]
    refine represents.joinText
      (fun arena child => arena.insertBeforeDetached sibling child) room ?_
    intro grown represents'
    exact represents'.insertBeforeDetached ⟨by simp, parent, member,
      represents.not_below_new (represents.inside parent sibling member).1⟩ represents.new_free

theorem moveChildren
    (here : source < tree.payloads.length) (there : target < tree.payloads.length)
    (different : source ≠ target)
    (apart : ∀ child ∈ tree.children source, ¬ tree.children.Below child target) :
    ∃ next, arena.moveChildren source target = some next ∧
      Represents next { tree with children := tree.children.moveChildren source target } := by
  have here' : source < arena.payloads.length := represents.payloads ▸ here
  obtain ⟨node, found, -, first, last, -⟩ := Arena.node_of_lt here'
  rw [represents.linked.first] at first
  cases shape : tree.children source with
  | nil =>
    have unchanged : tree.children.moveChildren source target = tree.children := by
      funext parent
      unfold Forest.moveChildren
      by_cases atSource : parent = source
      · simp [atSource, shape]
      · by_cases atTarget : parent = target
        · simp [atTarget, different.symm, shape]
        · simp [atSource, atTarget]
    refine ⟨arena, ?_, ?_⟩
    · simp [Arena.moveChildren, different, found, first, last, shape]
    · rw [unchanged]
      exact represents
  | cons head rest =>
    have first : (tree.children source).head? = some head := by rw [shape]; rfl
    have last : (tree.children source).getLast? =
        some ((head :: rest).getLast (cons_ne_nil _ _)) := by
      rw [shape]
      exact getLast?_eq_some_getLast _
    have patches := Arena.moveChildren_patches represents.linked represents.bounded here'
      (represents.payloads ▸ there) (represents.children_length_le source)
      (fun x member => represents.payloads ▸ (represents.inside source x member).2) different
      first last
    have members : ∀ parent x, x ∈ tree.children.moveChildren source target parent →
        (x ∈ tree.children parent ∨ (parent = target ∧ x ∈ tree.children source)) := by
      intro parent x member
      unfold Forest.moveChildren at member
      by_cases atSource : parent = source
      · simp [atSource] at member
      by_cases atTarget : parent = target
      · subst atTarget
        simp only [Function.update_of_ne atSource, Function.update_self, mem_append] at member
        exact member.imp_right fun moved => ⟨rfl, moved⟩
      · simp only [Function.update_of_ne atSource, Function.update_of_ne atTarget] at member
        exact .inl member
    exact represents.of_grafts patches
      (represents.linked.moveChildren different first last) there apart
      (fun x moved => (represents.inside source x moved).2) members

/-- Every operation that is allowed runs, and does to the tree what it stands for. -/
theorem run {op : ArenaOp} (allowed : tree.Allows op) :
    ∃ next, op.run arena = some next ∧ Represents next (op.apply tree) := by
  cases op with
  | create data =>
    obtain ⟨next, stored, represents'⟩ := represents.alloc allowed data
    exact ⟨next, by simp [ArenaOp.run, stored], represents'⟩
  | append parent child => exact represents.append allowed
  | detach target => exact represents.detach allowed
  | insertBefore sibling child => exact represents.insertBeforeDetached allowed.1 allowed.2
  | appendBeforeSibling sibling child => exact represents.appendBeforeSibling allowed
  | appendBasedOnParentNode element prevElement child =>
    obtain ⟨present, allowed⟩ := allowed
    obtain ⟨node, found, up, -⟩ := Arena.node_of_lt (represents.payloads ▸ present :
      element < arena.payloads.length)
    have same : node.parent = tree.parentOf element :=
      up.trans (represents.parentOf_eq element).symm
    simp only [ArenaOp.run, Arena.appendBasedOnParentNode, found, same, Option.bind_eq_bind,
      Option.bind_some, ArenaOp.apply]
    split at allowed
    · rename_i attached
      rw [if_pos attached, if_pos attached]
      exact represents.appendBeforeSibling allowed
    · rename_i detached
      rw [if_neg detached, if_neg detached]
      exact represents.append allowed
  | moveChildren source target =>
    obtain ⟨here, there, apart⟩ := allowed
    by_cases same : source = target
    · exact ⟨arena, by simp [ArenaOp.run, Arena.moveChildren, same], by
        simpa [ArenaOp.apply, same] using represents⟩
    · simp only [ArenaOp.apply, same, if_false]
      exact represents.moveChildren here there same (apart same)

end Represents

end Tree

section Runs

/-- A sequence of operations on the arena. -/
def ArenaOp.runAll (arena : Arena) (ops : List ArenaOp) : Option Arena := ops.foldlM run arena

/-- The same sequence on the abstract tree. -/
def ArenaOp.applyAll (tree : Tree) (ops : List ArenaOp) : Tree := ops.foldl apply tree

/-- Every operation meets its preconditions where it is made. -/
def Tree.Respects (tree : Tree) : List ArenaOp → Prop
  | [] => True
  | op :: ops => tree.Allows op ∧ (op.apply tree).Respects ops

/-- The links agree with each other, and no way along them leads back. -/
structure Arena.Consistent (arena : Arena) : Prop where
  neighbours : ∀ left right, arena.links.next left = some right ↔ arena.links.prev right = some left
  siblings : ∀ left right, arena.links.next left = some right →
    ∃ parent, arena.links.parent left = some parent ∧ arena.links.parent right = some parent
  first : ∀ parent child, arena.links.first parent = some child ↔
    arena.links.parent child = some parent ∧ arena.links.prev child = none
  last : ∀ parent child, arena.links.last parent = some child ↔
    arena.links.parent child = some parent ∧ arena.links.next child = none
  ancestors : ∀ id, ¬ Relation.TransGen (fun child parent => arena.links.parent child = some parent)
    id id
  following : ∀ id, ¬ Relation.TransGen (fun left right => arena.links.next left = some right) id id

variable {tree : Tree}

section Consistency

variable (represents : Represents arena tree) {left right : NodeId}
include represents

theorem Represents.runAll {ops : List ArenaOp} (respects : tree.Respects ops) :
    ∃ next, ArenaOp.runAll arena ops = some next ∧ Represents next (ArenaOp.applyAll tree ops) := by
  induction ops generalizing arena tree with
  | nil => exact ⟨arena, rfl, represents⟩
  | cons op ops ih =>
    obtain ⟨allowed, rest⟩ := respects
    obtain ⟨between, stepped, represents'⟩ := represents.run allowed
    obtain ⟨next, ran, represents''⟩ := ih represents' rest
    refine ⟨next, ?_, represents''⟩
    simp only [ArenaOp.runAll, foldlM_cons, stepped, Option.bind_eq_bind, Option.bind_some]
    exact ran

/-- Along `next` links the position in the list grows. -/
theorem Represents.following
    (path : Relation.TransGen (fun left right => arena.links.next left = some right) left right) :
    ∃ parent, left ∈ tree.children parent ∧ right ∈ tree.children parent ∧
      (tree.children parent).idxOf left < (tree.children parent).idxOf right := by
  have step : ∀ {left right : NodeId}, arena.links.next left = some right →
      ∃ parent, left ∈ tree.children parent ∧ right ∈ tree.children parent ∧
        (tree.children parent).idxOf left < (tree.children parent).idxOf right := by
    intro left right next
    obtain ⟨parent, pair⟩ := represents.linked.next.mp next
    obtain ⟨here, there⟩ := mem_of_adjacent pair
    refine ⟨parent, here, there, ?_⟩
    have nodup := represents.linked.nodup parent
    obtain ⟨before, after, shape⟩ := pair
    rw [← shape, append_assoc] at nodup ⊢
    have distinct := disjoint_of_nodup_append nodup
    have earlier : left ∉ before := fun member => distinct member (by simp)
    have later : right ∉ before := fun member => distinct member (by simp)
    have differ : left ≠ right := fun same =>
      (nodup_cons.mp nodup.of_append_right).1 (by simp [same])
    simp [idxOf_append_of_notMem, earlier, later, idxOf_cons_ne, differ]
  induction path with
  | single next => exact step next
  | tail _ next ih =>
    obtain ⟨parent, here, there, less⟩ := ih
    obtain ⟨other, there', beyond, less'⟩ := step next
    obtain rfl := represents.linked.unique there there'
    exact ⟨parent, here, beyond, Nat.lt_trans less less'⟩

theorem Represents.consistent : arena.Consistent := by
  have linked := represents.linked
  refine ⟨fun left right => linked.next.trans linked.prev.symm, ?_, ?_, ?_, ?_, ?_⟩
  · intro left right next
    obtain ⟨parent, pair⟩ := linked.next.mp next
    obtain ⟨here, there⟩ := mem_of_adjacent pair
    exact ⟨parent, linked.parent.mpr here, linked.parent.mpr there⟩
  · intro parent child
    rw [linked.first, linked.parent]
    constructor
    · intro head
      exact ⟨mem_of_mem_head? head, Option.eq_none_iff_forall_ne_some.mpr fun x prev =>
        linked.not_adjacent_first head (linked.prev.mp prev)⟩
    rintro ⟨member, prev⟩
    obtain ⟨before, after, shape, -, -, preceding, -⟩ := linked.split member
    rw [prev] at preceding
    obtain rfl := getLast?_eq_none_iff.mp preceding.symm
    rw [shape]
    rfl
  · intro parent child
    rw [linked.last, linked.parent]
    constructor
    · intro last
      exact ⟨mem_of_getLast? last, Option.eq_none_iff_forall_ne_some.mpr fun x next =>
        linked.not_adjacent_last last (linked.next.mp next)⟩
    rintro ⟨member, next⟩
    obtain ⟨before, after, shape, -, -, -, following⟩ := linked.split member
    rw [next] at following
    obtain rfl := head?_eq_none_iff.mp following.symm
    rw [shape]
    simp
  · intro id cycle
    refine represents.acyclic id (Relation.transGen_swap.mp ?_)
    exact Relation.TransGen.mono (fun child parent up => linked.parent.mp up) _ _ cycle
  · intro id cycle
    obtain ⟨parent, -, -, less⟩ := represents.following cycle
    exact absurd less (Nat.lt_irrefl _)

end Consistency

/-- Every sequence of operations that keeps to their preconditions runs on the empty
document without a panic; the links it leaves are consistent and acyclic, and they give every
node the child list it has in the abstract tree. Moving children puts them in order behind
those of the target and leaves none behind. -/
theorem arena_refines_tree (ops : List ArenaOp) (respects : Tree.new.Respects ops) :
    ∃ arena, ArenaOp.runAll .new ops = some arena ∧ arena.Consistent ∧
      arena.payloads = (ArenaOp.applyAll .new ops).payloads ∧
      (∀ id < arena.payloads.length,
        arena.childIds id = some ((ArenaOp.applyAll .new ops).children id)) ∧
      ∀ source target, source ≠ target →
        (ArenaOp.applyAll .new ops).Allows (.moveChildren source target) →
        ∃ next, arena.moveChildren source target = some next ∧ next.childIds source = some [] ∧
          ∃ old moved, arena.childIds target = some old ∧ arena.childIds source = some moved ∧
            next.childIds target = some (old ++ moved) := by
  obtain ⟨arena, ran, represents⟩ := Represents.new.runAll respects
  refine ⟨arena, ran, represents.consistent, represents.payloads, ?_, ?_⟩
  · intro id present
    exact represents.childIds (represents.payloads ▸ present)
  rintro source target different ⟨here, there, apart⟩
  obtain ⟨next, moved, represents'⟩ :=
    represents.moveChildren here there different (apart different)
  have emptied := represents'.childIds here
  have joined := represents'.childIds there
  simp only [Forest.moveChildren, Function.update_self, Function.update_of_ne different.symm]
    at emptied joined
  exact ⟨next, moved, emptied, _, _, represents.childIds there, represents.childIds here, joined⟩

/-- A paragraph in the document, with text that is appended in two parts. -/
def paragraphOps : List ArenaOp :=
  [.create (.element ⟨none, "", "p"⟩ [] none false), .append 0 (.node 1), .append 1 (.text "one"),
    .append 1 (.text " two")]

theorem arena_refines_tree_sample :
    Tree.new.Respects paragraphOps ∧
      ∃ arena, ArenaOp.runAll .new paragraphOps = some arena ∧ arena.Consistent := by
  have respects : Tree.new.Respects paragraphOps := by
    have room : Tree.new.payloads.length < 2 ^ 32 := by decide
    refine ⟨room, ⟨by decide, by decide, nofun, ?_⟩, ⟨by decide, by decide⟩,
      ⟨by decide, by decide⟩, trivial⟩
    intro below
    rcases Relation.ReflTransGen.cases_head below with same | ⟨child, edge, -⟩
    · cases same
    · cases edge
  obtain ⟨arena, ran, consistent, -⟩ := arena_refines_tree paragraphOps respects
  exact ⟨respects, arena, ran, consistent⟩

end Runs

end Coppice.Kepub
