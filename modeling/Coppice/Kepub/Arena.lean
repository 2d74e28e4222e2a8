import Mathlib.Algebra.Order.Ring.Nat
import Coppice.Kepub.Dom
import Coppice.Std.Siblings

/-!
# The document arena

Nodes of `kepub/src/dom.rs` in a vector, with five links each that every operation patches
by hand. An operation is `none` where the source panics: on an index out of range, a failed
assertion, or more than `u32::MAX` nodes.
-/

namespace Coppice.Kepub

open Coppice.Std

structure Node where
  parent : Option NodeId
  firstChild : Option NodeId
  lastChild : Option NodeId
  prev : Option NodeId
  next : Option NodeId
  data : NodeKind
deriving DecidableEq, Repr

structure Arena where
  nodes : List Node
deriving DecidableEq, Repr

inductive NodeOrText where
  | node (id : NodeId)
  | text (contents : String)
deriving DecidableEq, Repr

namespace Arena

/-- The document node of every arena. -/
def document : NodeId := 0

def node (arena : Arena) (id : NodeId) : Option Node := arena.nodes[id]?

/-- `node_mut`, and a change to the node. -/
def modify (arena : Arena) (id : NodeId) (change : Node → Node) : Option Arena :=
  if id < arena.nodes.length then some ⟨arena.nodes.modify id change⟩ else none

def setParent (arena : Arena) (id : NodeId) (link : Option NodeId) : Option Arena :=
  arena.modify id fun node => { node with parent := link }

def setFirstChild (arena : Arena) (id : NodeId) (link : Option NodeId) : Option Arena :=
  arena.modify id fun node => { node with firstChild := link }

def setLastChild (arena : Arena) (id : NodeId) (link : Option NodeId) : Option Arena :=
  arena.modify id fun node => { node with lastChild := link }

def setPrev (arena : Arena) (id : NodeId) (link : Option NodeId) : Option Arena :=
  arena.modify id fun node => { node with prev := link }

def setNext (arena : Arena) (id : NodeId) (link : Option NodeId) : Option Arena :=
  arena.modify id fun node => { node with next := link }

def setData (arena : Arena) (id : NodeId) (data : NodeKind) : Option Arena :=
  arena.modify id fun node => { node with data := data }

/-- What follows the previous sibling, or comes first under the parent if there is none. -/
def setNextOrFirst (arena : Arena) (previous : Option NodeId) (parent : NodeId)
    (link : Option NodeId) : Option Arena :=
  match previous with
  | some previous => arena.setNext previous link
  | none => arena.setFirstChild parent link

/-- What precedes the next sibling, or comes last under the parent if there is none. -/
def setPrevOrLast (arena : Arena) (next : Option NodeId) (parent : NodeId)
    (link : Option NodeId) : Option Arena :=
  match next with
  | some next => arena.setPrev next link
  | none => arena.setLastChild parent link

/-- A new node without links, under the next index. -/
def alloc (arena : Arena) (data : NodeKind) : Option (NodeId × Arena) :=
  if arena.nodes.length < 2 ^ 32 then
    some (arena.nodes.length, ⟨arena.nodes ++ [⟨none, none, none, none, none, data⟩]⟩)
  else none

def new : Arena := ⟨[⟨none, none, none, none, none, .document⟩]⟩

/-- From a child along the `next` links. -/
def childIdsFrom (arena : Arena) : Nat → Option NodeId → Option (List NodeId)
  | _, none => some []
  | 0, some _ => none
  | fuel + 1, some id => do
      let node ← arena.node id
      let rest ← childIdsFrom arena fuel node.next
      some (id :: rest)

def childIds (arena : Arena) (parent : NodeId) : Option (List NodeId) := do
  let node ← arena.node parent
  arena.childIdsFrom arena.nodes.length node.firstChild

def appendNodeId (arena : Arena) (parent child : NodeId) : Option Arena := do
  let childNode ← arena.node child
  if childNode.parent.isSome then none
  else
    let previous := (← arena.node parent).lastChild
    let arena ← arena.setParent child (some parent)
    let arena ← arena.setPrev child previous
    let arena ← arena.setNext child none
    let arena ← arena.setNextOrFirst previous parent (some child)
    arena.setLastChild parent (some child)

/-- The text node a link leads to, if it is one. -/
def textAt (arena : Arena) (link : Option NodeId) : Option (NodeId × String) := do
  let id ← link
  match (← arena.node id).data with
  | .text contents => some (id, contents)
  | _ => none

def appendText (arena : Arena) (parent : NodeId) (text : String) : Option Arena := do
  let last := (← arena.node parent).lastChild
  match arena.textAt last with
  | some (id, contents) => arena.setData id (.text (contents ++ text))
  | none =>
    let (child, arena) ← arena.alloc (.text text)
    arena.appendNodeId parent child

/-- `detach`; a node without a parent stays as it is. -/
def detach (arena : Arena) (target : NodeId) : Option Arena := do
  let node ← arena.node target
  match node.parent with
  | none => some arena
  | some parent =>
    let arena ← arena.setNextOrFirst node.prev parent node.next
    let arena ← arena.setPrevOrLast node.next parent node.prev
    let arena ← arena.setParent target none
    let arena ← arena.setPrev target none
    arena.setNext target none

def insertBeforeDetached (arena : Arena) (sibling child : NodeId) : Option Arena := do
  let childNode ← arena.node child
  if childNode.parent.isSome then none
  else
    let siblingNode ← arena.node sibling
    let parent ← siblingNode.parent
    let previous := siblingNode.prev
    let arena ← arena.setParent child (some parent)
    let arena ← arena.setPrev child previous
    let arena ← arena.setNext child (some sibling)
    let arena ← arena.setPrev sibling (some child)
    arena.setNextOrFirst previous parent (some child)

def appendBeforeText (arena : Arena) (sibling : NodeId) (text : String) : Option Arena := do
  let previous := (← arena.node sibling).prev
  match arena.textAt previous with
  | some (id, contents) => arena.setData id (.text (contents ++ text))
  | none =>
    let (child, arena) ← arena.alloc (.text text)
    arena.insertBeforeDetached sibling child

def appendBeforeNode (arena : Arena) (sibling child : NodeId) : Option Arena := do
  let arena ← arena.detach child
  arena.insertBeforeDetached sibling child

/-- The loop of `move_children`: every node from `id` to `last` gets a new parent. -/
def adoptFrom (target last : NodeId) : Nat → Arena → NodeId → Option Arena
  | 0, _, _ => none
  | fuel + 1, arena, id => do
      let arena ← arena.setParent id (some target)
      if id = last then some arena
      else
        match (← arena.node id).next with
        | none => some arena
        | some next => adoptFrom target last fuel arena next

def moveChildren (arena : Arena) (source target : NodeId) : Option Arena := do
  if source = target then some arena
  else
    let node ← arena.node source
    match node.firstChild, node.lastChild with
    | some first, some last =>
      let arena ← arena.setFirstChild source none
      let arena ← arena.setLastChild source none
      let arena ← adoptFrom target last arena.nodes.length arena first
      let previous := (← arena.node target).lastChild
      let arena ← arena.setNextOrFirst previous target (some first)
      let arena ← arena.setPrev first previous
      let arena ← arena.setNext last none
      arena.setLastChild target (some last)
    | _, _ => some arena

section TreeSink

def append (arena : Arena) (parent : NodeId) : NodeOrText → Option Arena
  | .text text => arena.appendText parent text
  | .node child => arena.appendNodeId parent child

def appendBeforeSibling (arena : Arena) (sibling : NodeId) : NodeOrText → Option Arena
  | .text text => arena.appendBeforeText sibling text
  | .node child => arena.appendBeforeNode sibling child

def appendBasedOnParentNode (arena : Arena) (element prevElement : NodeId) (child : NodeOrText) :
    Option Arena := do
  if (← arena.node element).parent.isSome then arena.appendBeforeSibling element child
  else arena.append prevElement child

end TreeSink

section Links

/-- The links of all nodes. -/
def links (arena : Arena) : Links NodeId where
  parent id := (arena.node id).bind Node.parent
  first id := (arena.node id).bind Node.firstChild
  last id := (arena.node id).bind Node.lastChild
  prev id := (arena.node id).bind Node.prev
  next id := (arena.node id).bind Node.next

/-- The payloads of all nodes. -/
def payloads (arena : Arena) : List NodeKind := arena.nodes.map Node.data

variable {arena : Arena} {id parent : NodeId} {change : Node → Node}

theorem node_of_lt (present : id < arena.payloads.length) :
    ∃ node, arena.node id = some node ∧ node.parent = arena.links.parent id ∧
      node.firstChild = arena.links.first id ∧ node.lastChild = arena.links.last id ∧
      node.prev = arena.links.prev id ∧ node.next = arena.links.next id ∧
      arena.payloads[id]? = some node.data := by
  rw [payloads, List.length_map] at present
  simp [links, node, payloads, List.getElem?_eq_getElem present]

/-- A change that keeps the payload, on any field of a node. -/
theorem modify_ok (present : id < arena.payloads.length)
    (keeps : ∀ node, (change node).data = node.data) :
    ∃ next, arena.modify id change = some next ∧ next.payloads = arena.payloads ∧
      ∀ (field : Node → Option NodeId) other, (next.node other).bind field =
        if other = id then (arena.node id).bind fun node => field (change node)
        else (arena.node other).bind field := by
  rw [payloads, List.length_map] at present
  refine ⟨_, if_pos present, ?_, ?_⟩
  · refine List.ext_getElem? fun other => ?_
    simp only [payloads, List.getElem?_map, List.getElem?_modify]
    split
    · simp [Function.comp_def, keeps]
    · simp
  · intro field other
    simp only [node, List.getElem?_modify]
    split
    · rename_i same
      subst same
      cases arena.nodes[id]? <;> simp
    · rename_i different
      simp [Ne.symm different]

/-- On an arena with these payloads and links the operation succeeds, keeps the payloads and leaves
the patched links. -/
def Patches (payloads : List NodeKind) (links : Links NodeId) (operation : Arena → Option Arena)
    (patched : Links NodeId) : Prop :=
  ∀ arena : Arena, arena.payloads = payloads → arena.links = links →
    ∃ next, operation arena = some next ∧ next.payloads = payloads ∧ next.links = patched

variable {payloads : List NodeKind} {links patched patched' : Links NodeId}

theorem Patches.bind {operation continue_ : Arena → Option Arena}
    (patches : Patches payloads links operation patched)
    (rest : Patches payloads patched continue_ patched') :
    Patches payloads links (fun arena => (operation arena).bind continue_) patched' := by
  intro arena kept linked
  obtain ⟨next, stored, kept, linked⟩ := patches arena kept linked
  simpa [stored] using rest next kept linked

variable (link : Option NodeId)

section Setters

variable (present : id < payloads.length)
include present

/-- A change of the links of one node. -/
theorem modify_patches (keeps : ∀ node, (change node).data = node.data := by exact fun _ => rfl)
    (changes : ∀ arena : Arena, arena.links = links → ∀ found, arena.node id = some found →
      patched =
        { parent := fun x => if x = id then (change found).parent else links.parent x
          first := fun x => if x = id then (change found).firstChild else links.first x
          last := fun x => if x = id then (change found).lastChild else links.last x
          prev := fun x => if x = id then (change found).prev else links.prev x
          next := fun x => if x = id then (change found).next else links.next x } := by
      rintro arena rfl found there
      ext1 <;> funext x <;> grind [Arena.links]) :
    Patches payloads links (·.modify id change) patched := by
  rintro arena rfl rfl
  obtain ⟨found, there, -⟩ := node_of_lt present
  obtain ⟨next, stored, kept, fields⟩ := modify_ok present keeps
  refine ⟨next, stored, kept, ?_⟩
  rw [changes arena rfl found there]
  ext1 <;> funext x <;> simp only [Arena.links, fields, there, Option.bind_some]

theorem setParent_patches :
    Patches payloads links (·.setParent id link)
      { links with parent := fun x => if x = id then link else links.parent x } :=
  modify_patches present

theorem setFirstChild_patches :
    Patches payloads links (·.setFirstChild id link)
      { links with first := fun x => if x = id then link else links.first x } :=
  modify_patches present

theorem setLastChild_patches :
    Patches payloads links (·.setLastChild id link)
      { links with last := fun x => if x = id then link else links.last x } :=
  modify_patches present

theorem setPrev_patches :
    Patches payloads links (·.setPrev id link)
      { links with prev := fun x => if x = id then link else links.prev x } :=
  modify_patches present

theorem setNext_patches :
    Patches payloads links (·.setNext id link)
      { links with next := fun x => if x = id then link else links.next x } :=
  modify_patches present

end Setters

variable {link}

theorem setNextOrFirst_patches {previous : Option NodeId} (there : parent < payloads.length)
    (inside : ∀ node, previous = some node → node < payloads.length) :
    Patches payloads links (·.setNextOrFirst previous parent link)
      { links with
        first := fun x => if previous = none ∧ x = parent then link else links.first x
        next := fun x => if previous = some x then link else links.next x } := by
  cases previous with
  | some node => simpa [setNextOrFirst, eq_comm] using setNext_patches link (inside node rfl)
  | none => simpa [setNextOrFirst] using setFirstChild_patches link there

theorem setPrevOrLast_patches {next : Option NodeId} (there : parent < payloads.length)
    (inside : ∀ node, next = some node → node < payloads.length) :
    Patches payloads links (·.setPrevOrLast next parent link)
      { links with
        last := fun x => if next = none ∧ x = parent then link else links.last x
        prev := fun x => if next = some x then link else links.prev x } := by
  cases next with
  | some node => simpa [setPrevOrLast, eq_comm] using setPrev_patches link (inside node rfl)
  | none => simpa [setPrevOrLast] using setLastChild_patches link there

end Links

end Arena

end Coppice.Kepub
