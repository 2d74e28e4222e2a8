import Mathlib.Data.List.Chain
import Mathlib.Data.List.Infix
import Mathlib.Data.List.Nodup
import Mathlib.Logic.Relation

/-!
# Ordered forests and their links

A forest gives every node the list of its children. An intrusive representation keeps five
links per node instead: its parent, its first and last child, and its neighbours among the
children of its parent. `Linked` says that the links are those of the lists; each operation
on the links keeps it for the operation on the lists that it stands for.
-/

namespace Coppice.Std

open Function List

variable {α : Type} {before after : List α}

section Forest

/-- The children of every node, in order. -/
abbrev Forest (α : Type) := α → List α

/-- `descendant` is the ancestor itself or below it. -/
abbrev Forest.Below (forest : Forest α) : α → α → Prop :=
  Relation.ReflTransGen fun parent child => child ∈ forest parent

/-- No node is below itself. -/
def Forest.Acyclic (forest : Forest α) : Prop :=
  ∀ node, ¬ Relation.TransGen (fun parent child => child ∈ forest parent) node node

variable [DecidableEq α] {forest : Forest α} {sibling child : α} {list : List α}

/-- A child in front of one of its siblings. -/
def insertBefore (sibling child : α) : List α → List α
  | [] => []
  | first :: rest =>
    if first = sibling then child :: first :: rest else first :: insertBefore sibling child rest

namespace Forest

variable (forest : Forest α)

def append (parent child : α) : Forest α := update forest parent (forest parent ++ [child])

def remove (child : α) : Forest α := fun parent => (forest parent).erase child

def insertBefore (sibling child : α) : Forest α :=
  fun parent => Std.insertBefore sibling child (forest parent)

def moveChildren (source target : α) : Forest α :=
  update (update forest target (forest target ++ forest source)) source []

end Forest

theorem insertBefore_of_not_mem (absent : sibling ∉ list) :
    insertBefore sibling child list = list := by
  induction list with
  | nil => rfl
  | cons first rest ih =>
    have other : first ≠ sibling := fun same => absent (same ▸ mem_cons_self)
    rw [insertBefore, if_neg other, ih fun member => absent (mem_cons_of_mem _ member)]

theorem insertBefore_split (absent : sibling ∉ before) :
    insertBefore sibling child (before ++ sibling :: after) =
      before ++ child :: sibling :: after := by
  induction before with
  | nil => exact if_pos rfl
  | cons first rest ih =>
    have other : first ≠ sibling := fun same => absent (same ▸ mem_cons_self)
    rw [cons_append, insertBefore, if_neg other,
      ih fun member => absent (mem_cons_of_mem _ member), cons_append]

theorem mem_insertBefore {sibling child x : α}
    (member : x ∈ insertBefore sibling child list) : x ∈ list ∨ (sibling ∈ list ∧ x = child) := by
  induction list with
  | nil => cases member
  | cons first rest ih =>
    unfold insertBefore at member
    grind

omit [DecidableEq α]

/-- New edges from one node close no cycle when none of them leads back to it. -/
theorem Forest.Acyclic.extend {forest' : Forest α} (acyclic : forest.Acyclic) {parent : α}
    {children : α → Prop} (apart : ∀ child, children child → ¬ forest.Below child parent)
    (edges : ∀ node child, child ∈ forest' node →
      child ∈ forest node ∨ (node = parent ∧ children child)) : forest'.Acyclic := by
  -- a path either exists already or enters a new child for the last time
  have paths : ∀ {start stop}, Relation.TransGen (fun p c => c ∈ forest' p) start stop →
      Relation.TransGen (fun p c => c ∈ forest p) start stop ∨
        (forest.Below start parent ∧ ∃ child, children child ∧ forest.Below child stop) := by
    intro start stop path
    induction path with
    | single edge =>
      rcases edges _ _ edge with old | ⟨rfl, new⟩
      · exact .inl (.single old)
      · exact .inr ⟨.refl, _, new, .refl⟩
    | tail before edge ih =>
      rcases ih with old | ⟨up, child, new, down⟩
      · rcases edges _ _ edge with kept | ⟨rfl, new⟩
        · exact .inl (old.tail kept)
        · exact .inr ⟨old.to_reflTransGen, _, new, .refl⟩
      · rcases edges _ _ edge with kept | ⟨rfl, again⟩
        · exact .inr ⟨up, child, new, down.tail kept⟩
        · exact absurd down (apart child new)
  intro node cycle
  rcases paths cycle with old | ⟨up, child, new, down⟩
  · exact acyclic node old
  · exact apart child new (down.trans up)

end Forest

section Links

/-- Five links per node. -/
@[ext] structure Links (α : Type) where
  parent : α → Option α
  first : α → Option α
  last : α → Option α
  prev : α → Option α
  next : α → Option α

namespace Links

variable [DecidableEq α] (links : Links α)

/-- `child` becomes the last child of `parent`. -/
def append (parent child : α) : Links α where
  parent x := if x = child then some parent else links.parent x
  first x := if links.last parent = none ∧ x = parent then some child else links.first x
  last x := if x = parent then some child else links.last x
  prev x := if x = child then links.last parent else links.prev x
  next x :=
    if links.last parent = some x then some child
    else if x = child then none
    else links.next x

/-- `target` leaves the children of `parent`. -/
def detach (parent target : α) : Links α where
  parent x := if x = target then none else links.parent x
  first x := if links.prev target = none ∧ x = parent then links.next target else links.first x
  last x := if links.next target = none ∧ x = parent then links.prev target else links.last x
  prev x :=
    if x = target then none
    else if links.next target = some x then links.prev target
    else links.prev x
  next x :=
    if x = target then none
    else if links.prev target = some x then links.next target
    else links.next x

/-- `child` comes before `sibling` among the children of `parent`. -/
def insertBefore (parent sibling child : α) : Links α where
  parent x := if x = child then some parent else links.parent x
  first x := if links.prev sibling = none ∧ x = parent then some child else links.first x
  last := links.last
  prev x :=
    if x = sibling then some child
    else if x = child then links.prev sibling
    else links.prev x
  next x :=
    if links.prev sibling = some x then some child
    else if x = child then some sibling
    else links.next x

/-- Between `before` and `after`, children of `parent`, `new` takes the place of `old`. -/
def splice (parent : α) (before : List α) (old new : Option α) (after : List α) : Links α where
  parent x := if new = some x then some parent else if old = some x then none else links.parent x
  first x := if before = [] ∧ x = parent then new.or after.head? else links.first x
  last x := if after = [] ∧ x = parent then new.or before.getLast? else links.last x
  prev x :=
    if new = some x then before.getLast?
    else if old = some x then none
    else if after.head? = some x then new.or before.getLast?
    else links.prev x
  next x :=
    if new = some x then after.head?
    else if old = some x then none
    else if before.getLast? = some x then new.or after.head?
    else links.next x

/-- The children of `source`, from `first` to `last`, follow those of `target`. -/
def moveChildren (source target : α) (children : List α) (first last : α) : Links α where
  parent x := if x ∈ children then some target else links.parent x
  first x :=
    if links.last target = none ∧ x = target then some first
    else if x = source then none
    else links.first x
  last x := if x = target then some last else if x = source then none else links.last x
  prev x := if x = first then links.last target else links.prev x
  next x :=
    if x = last then none
    else if links.last target = some x then some first
    else links.next x

end Links

/-- Two nodes stand next to each other among the children of a node. -/
def Forest.Adjacent (forest : Forest α) (left right : α) : Prop :=
  ∃ parent, [left, right] <:+: forest parent

/-- The links are those of the lists. -/
structure Linked (links : Links α) (forest : Forest α) : Prop where
  parent : ∀ {parent child}, links.parent child = some parent ↔ child ∈ forest parent
  first : ∀ parent, links.first parent = (forest parent).head?
  last : ∀ parent, links.last parent = (forest parent).getLast?
  nodup : ∀ parent, (forest parent).Nodup
  prev : ∀ {left right}, links.prev right = some left ↔ forest.Adjacent left right
  next : ∀ {left right}, links.next left = some right ↔ forest.Adjacent left right

section Pairs

variable {list front back : List α} {x y : α}

/-- Neighbours in two lists in a row: in one of them, or where they meet. -/
theorem pair_infix_append : [x, y] <:+: front ++ back ↔
    [x, y] <:+: front ∨ [x, y] <:+: back ∨ front.getLast? = some x ∧ back.head? = some y := by
  induction front with
  | nil => simp
  | cons first rest ih =>
    rw [cons_append, infix_cons_iff, infix_cons_iff, ih, cons_prefix_cons, cons_prefix_cons]
    cases rest with
    | nil => cases back <;> grind
    | cons second rest => simp [or_assoc]

theorem mem_of_adjacent (pair : [x, y] <:+: list) : x ∈ list ∧ y ∈ list :=
  ⟨pair.subset mem_cons_self, pair.subset (mem_cons_of_mem _ mem_cons_self)⟩

/-- Neighbours where something may stand between two lists. -/
theorem pair_infix_optional {between : Option α} :
    [x, y] <:+: front ++ (between.toList ++ back) ↔ [x, y] <:+: front ∨ [x, y] <:+: back ∨
      between = some x ∧ back.head? = some y ∨
        front.getLast? = some x ∧ between.or back.head? = some y := by
  rw [pair_infix_append, pair_infix_append]
  cases between <;> simp [infix_cons_iff, or_assoc]

/-- Nothing comes after the last of a list without repetitions. -/
theorem not_pair_of_last (nodup : list.Nodup) (last : list.getLast? = some x) :
    ¬ [x, y] <:+: list := by
  rintro ⟨before, after, rfl⟩
  rw [append_assoc, getLast?_append_of_ne_nil _ (by simp)] at last
  have later : x ∈ y :: after := mem_of_getLast? (by simpa [getLast?_cons_cons] using last)
  exact (nodup_cons.mp (append_assoc before _ _ ▸ nodup).of_append_right).1 later

/-- Nothing comes before the first of a list without repetitions. -/
theorem not_pair_of_head (nodup : list.Nodup) (head : list.head? = some y) :
    ¬ [x, y] <:+: list := by
  rintro ⟨before, after, rfl⟩
  rw [append_assoc] at nodup head
  cases before with
  | nil =>
    obtain rfl : x = y := by simpa using head
    simp at nodup
  | cons first rest =>
    obtain rfl : first = y := by simpa using head
    simp at nodup

end Pairs

/-- Neighbours under one node or under another. -/
theorem Forest.adjacent_iff {forest : Forest α} {x y : α} (parent : α) :
    forest.Adjacent x y ↔
      [x, y] <:+: forest parent ∨ ∃ other ≠ parent, [x, y] <:+: forest other := by
  constructor
  · rintro ⟨other, pair⟩
    by_cases same : other = parent
    · exact .inl (same ▸ pair)
    · exact .inr ⟨other, same, pair⟩
  · rintro (pair | ⟨other, -, pair⟩) <;> exact ⟨_, pair⟩

namespace Linked

variable {links : Links α} {forest forest' : Forest α} {parent child x y : α}
  (linked : Linked links forest)
include linked

/-- A node is a child of no two nodes. -/
theorem unique {other : α} (member : child ∈ forest parent) (member' : child ∈ forest other) :
    parent = other :=
  Option.some.inj ((linked.parent.mpr member).symm.trans (linked.parent.mpr member'))

theorem parent_none (free : ∀ parent, child ∉ forest parent) : links.parent child = none :=
  Option.eq_none_iff_forall_ne_some.mpr fun parent up => free parent (linked.parent.mp up)

theorem not_adjacent_last (last : (forest parent).getLast? = some x) : ¬ forest.Adjacent x y := by
  rintro ⟨other, pair⟩
  obtain rfl := linked.unique (mem_of_getLast? last) (mem_of_adjacent pair).1
  exact not_pair_of_last (linked.nodup parent) last pair

theorem not_adjacent_first (first : (forest parent).head? = some y) : ¬ forest.Adjacent x y := by
  rintro ⟨other, pair⟩
  obtain rfl := linked.unique (mem_of_mem_head? first) (mem_of_adjacent pair).2
  exact not_pair_of_head (linked.nodup parent) first pair

/-- The `next` links run through a list. -/
theorem chain (parent : α) : (forest parent).IsChain fun x y => links.next x = some y :=
  isChain_iff_forall_rel_of_append_cons_cons.2 fun {x y} before after shape =>
    linked.next.2 ⟨parent, before, after, by simp [shape]⟩

/-- The place of a child in the list of its parent. -/
theorem split (member : child ∈ forest parent) :
    ∃ before after, forest parent = before ++ child :: after ∧ child ∉ before ∧ child ∉ after ∧
      links.prev child = before.getLast? ∧ links.next child = after.head? := by
  obtain ⟨before, after, shape⟩ := append_of_mem member
  have nodup := linked.nodup parent
  rw [shape] at nodup
  have notBefore : child ∉ before := fun earlier =>
    disjoint_of_nodup_append nodup earlier mem_cons_self
  have notAfter : child ∉ after := (nodup_cons.mp nodup.of_append_right).1
  have here : ∀ {x y}, x = child ∨ y = child → (forest.Adjacent x y ↔
      x = child ∧ after.head? = some y ∨ before.getLast? = some x ∧ y = child) := by
    intro x y either
    have pairs := @pair_infix_optional α before after x y (some child)
    have early := @mem_of_adjacent α before x y
    have late := @mem_of_adjacent α after x y
    constructor
    · rintro ⟨other, pair⟩
      obtain ⟨left, right⟩ := mem_of_adjacent pair
      obtain rfl : parent = other := by
        rcases either with rfl | rfl
        · exact linked.unique member left
        · exact linked.unique member right
      rw [shape] at pair
      grind
    · intro pair
      refine ⟨parent, shape ▸ pairs.mpr ?_⟩
      grind
  have starts : after.head? ≠ some child := fun head => notAfter (mem_of_mem_head? head)
  have ends : before.getLast? ≠ some child := fun last => notBefore (mem_of_getLast? last)
  refine ⟨before, after, shape, notBefore, notAfter, Option.ext fun x => ?_, Option.ext fun x => ?_⟩
  · rw [linked.prev, here (.inr rfl)]
    simp [starts]
  · rw [linked.next, here (.inl rfl)]
    simp [ends]

variable [DecidableEq α]

theorem splice {old new : Option α}
    (shape : forest parent = before ++ (old.toList ++ after))
    (shape' : forest' parent = before ++ (new.toList ++ after))
    (others : ∀ other, other ≠ parent → forest' other = forest other)
    (free : ∀ x, new = some x → ∀ other, x ∉ forest other) :
    Linked (links.splice parent before old new after) forest' := by
  have nodup := linked.nodup parent
  rw [shape] at nodup
  have mem : ∀ {x}, x ∈ forest parent ↔ x ∈ before ∨ old = some x ∨ x ∈ after := by simp [shape]
  have mem' : ∀ {x}, x ∈ forest' parent ↔ x ∈ before ∨ new = some x ∨ x ∈ after := by simp [shape']
  have fresh : ∀ {x}, new = some x → x ∉ before ∧ x ∉ after := fun same =>
    ⟨fun here => free _ same _ (mem.2 (.inl here)), fun here =>
      free _ same _ (mem.2 (.inr (.inr here)))⟩
  have apart : ∀ {x}, old = some x → x ∉ before ∧ x ∉ after := by grind
  have disjoint : ∀ {x}, x ∈ before → x ∉ after := by grind
  -- neighbours are in one of the two parts, where the parts meet, or under another node
  have neighbours : ∀ {x y}, ((links.splice parent before old new after).prev y = some x ↔
      forest'.Adjacent x y) ∧
        ((links.splice parent before old new after).next x = some y ↔ forest'.Adjacent x y) := by
    intro x y
    have prev := @prev _ _ _ linked x y
    have next := @next _ _ _ linked x y
    have early := @mem_of_adjacent α before x y
    have late := @mem_of_adjacent α after x y
    have front := @not_pair_of_last α before x y nodup.of_append_left
    have back := @not_pair_of_head α after x y nodup.of_append_right.of_append_right
    have ends : before.getLast? = some x → x ∈ before := mem_of_getLast?
    have starts : after.head? = some y → y ∈ after := mem_of_mem_head?
    have foreign : (∃ other ≠ parent, [x, y] <:+: forest other) →
        x ∉ forest parent ∧ y ∉ forest parent ∧ new ≠ some x ∧ new ≠ some y := by
      rintro ⟨other, different, pair⟩
      obtain ⟨left, right⟩ := mem_of_adjacent pair
      exact ⟨fun here => different (linked.unique left here), fun here =>
        different (linked.unique right here), fun same => free _ same _ left,
        fun same => free _ same _ right⟩
    have away : (∃ other ≠ parent, [x, y] <:+: forest' other) ↔
        ∃ other ≠ parent, [x, y] <:+: forest other :=
      exists_congr fun other => and_congr_right fun different => by rw [others other different]
    rw [Forest.adjacent_iff parent, shape, pair_infix_optional] at prev next
    rw [Forest.adjacent_iff parent, shape', pair_infix_optional, away]
    clear away shape shape' nodup free others mem'
    simp only [Links.splice]
    generalize (∃ other ≠ parent, [x, y] <:+: forest other) = elsewhere at *
    generalize ([x, y] <:+: before) = early at *
    generalize ([x, y] <:+: after) = late at *
    generalize before.getLast? = ending at *
    generalize after.head? = start at *
    cases new <;> cases old <;> grind
  refine ⟨fun {owner x} => ?_, fun owner => ?_, fun owner => ?_, fun owner => ?_, neighbours.1,
    neighbours.2⟩
  · have up := @Linked.parent _ _ _ linked owner x
    by_cases same : owner = parent
    · subst same
      grind [Links.splice]
    · rw [others owner same]
      grind [Links.splice, linked.unique]
  · by_cases same : owner = parent
    · subst same
      simp only [Links.splice, and_true, linked.first, shape, shape']
      cases before <;> simp
    · simp [Links.splice, same, others, linked.first]
  · by_cases same : owner = parent
    · subst same
      simp only [Links.splice, and_true, linked.last, shape, shape']
      cases after <;> cases new <;> simp [getLast?_append, getLast?_cons]
    · simp [Links.splice, same, others, linked.last]
  · by_cases same : owner = parent
    · rw [same, shape']
      cases new <;> grind
    · rw [others owner same]
      exact linked.nodup owner

theorem append (free : ∀ other, child ∉ forest other) :
    Linked (links.append parent child) (forest.append parent child) := by
  have notLast : (forest parent).getLast? ≠ some child :=
    fun last => free parent (mem_of_getLast? last)
  have same : links.append parent child =
      links.splice parent (forest parent) none (some child) [] := by
    ext x : 2 <;> simp only [Links.append, Links.splice, linked.last,
      getLast?_eq_none_iff] <;> grind
  rw [same]
  exact linked.splice (by simp) (update_self _ _ _) (fun other different =>
    update_of_ne different _ _)
    (by simpa using free)

theorem detach (member : child ∈ forest parent) :
    Linked (links.detach parent child) (forest.remove child) := by
  obtain ⟨before, after, shape, notBefore, notAfter, prev, next⟩ := linked.split member
  have same : links.detach parent child = links.splice parent before (some child) none after := by
    ext x : 2 <;> simp only [Links.detach, Links.splice, prev, next, getLast?_eq_none_iff,
      head?_eq_none_iff] <;> grind
  rw [same]
  refine linked.splice shape ?_ (fun other different => erase_of_not_mem fun member' => ?_) nofun
  · simp only [Forest.remove]
    rw [shape, erase_append_right _ notBefore, erase_cons_head]
    rfl
  · exact different (linked.unique member' member)

theorem insertBefore {sibling : α} (member : sibling ∈ forest parent)
    (free : ∀ other, child ∉ forest other) :
    Linked (links.insertBefore parent sibling child) (forest.insertBefore sibling child) := by
  obtain ⟨before, after, shape, notBefore, notAfter, prev, next⟩ := linked.split member
  have absent : child ∉ before ++ sibling :: after := shape ▸ free parent
  have same : links.insertBefore parent sibling child =
      links.splice parent before none (some child) (sibling :: after) := by
    have apart : child ≠ sibling := fun same => absent (same ▸ by simp)
    have notLast : before.getLast? ≠ some child :=
      fun last => absent (mem_append_left _ (mem_of_getLast? last))
    ext x : 2 <;> simp only [Links.insertBefore, Links.splice, prev, getLast?_eq_none_iff] <;> grind
  rw [same]
  refine linked.splice (by simpa using shape) ?_
    (fun other different => insertBefore_of_not_mem fun member' => ?_) (by simpa using free)
  · simp only [Forest.insertBefore]
    rw [shape, insertBefore_split notBefore]
    rfl
  · exact different (linked.unique member' member)

theorem moveChildren {source target first last : α}
    (apart : source ≠ target) (head : (forest source).head? = some first)
    (final : (forest source).getLast? = some last) :
    Linked (links.moveChildren source target (forest source) first last)
      (forest.moveChildren source target) := by
  have emptied : forest.moveChildren source target source = [] := update_self _ _ _
  have joined : forest.moveChildren source target target = forest target ++ forest source := by
    simp only [Forest.moveChildren]
    rw [update_of_ne apart.symm, update_self]
  have others : ∀ {other}, other ≠ source → other ≠ target →
      forest.moveChildren source target other = forest other := by
    intro other notSource notTarget
    simp only [Forest.moveChildren]
    rw [update_of_ne notSource, update_of_ne notTarget]
  have foreign : ∀ {x}, x ∈ forest target → x ∉ forest source :=
    fun member member' => apart (linked.unique member' member)
  -- the only new neighbours are the last child of the target and the first one moved
  have adjacent : ∀ {x y}, Forest.Adjacent (forest.moveChildren source target) x y ↔
      forest.Adjacent x y ∨ (forest target).getLast? = some x ∧ first = y := by
    intro x y
    constructor
    · rintro ⟨other, pair⟩
      by_cases atSource : other = source
      · simp [atSource, emptied] at pair
      by_cases atTarget : other = target
      · rw [atTarget, joined, pair_infix_append, head, Option.some.injEq] at pair
        rcases pair with old | old | new
        · exact .inl ⟨_, old⟩
        · exact .inl ⟨_, old⟩
        · exact .inr new
      · exact .inl ⟨other, others atSource atTarget ▸ pair⟩
    · rintro (⟨other, pair⟩ | new)
      · by_cases atSource : other = source
        · exact ⟨target, joined ▸ pair_infix_append.2 (.inr (.inl (atSource ▸ pair)))⟩
        by_cases atTarget : other = target
        · exact ⟨target, joined ▸ pair_infix_append.2 (.inl (atTarget ▸ pair))⟩
        · exact ⟨other, (others atSource atTarget).symm ▸ pair⟩
      · exact ⟨target, joined ▸ pair_infix_append.2 (.inr (.inr (by simpa [head] using new)))⟩
  have firstMoved : first ∈ forest source := mem_of_mem_head? head
  have lastMoved : last ∈ forest source := mem_of_getLast? final
  refine ⟨fun {parent x} => ?_, fun parent => ?_, fun parent => ?_, fun parent => ?_,
    fun {x y} => ?_, fun {x y} => ?_⟩
  · have up := @Linked.parent _ _ _ linked parent x
    have unique := @linked.unique
    by_cases atSource : parent = source
    · grind [Links.moveChildren]
    by_cases atTarget : parent = target
    · grind [Links.moveChildren]
    · rw [others atSource atTarget]
      grind [Links.moveChildren]
  · by_cases atTarget : parent = target
    · rw [atTarget, joined]
      simp only [Links.moveChildren, and_true, linked.last, linked.first, apart.symm, if_false]
      cases forest target <;> simp [head]
    · by_cases atSource : parent = source
      · simp [Links.moveChildren, atSource, apart, emptied]
      · simp [Links.moveChildren, atSource, atTarget, others, linked.first]
  · by_cases atTarget : parent = target
    · simp [Links.moveChildren, atTarget, joined, getLast?_append, final]
    · by_cases atSource : parent = source
      · simp [Links.moveChildren, atSource, apart, emptied]
      · simp [Links.moveChildren, atSource, atTarget, others, linked.last]
  · by_cases atTarget : parent = target
    · rw [atTarget, joined]
      exact nodup_append.mpr ⟨linked.nodup _, linked.nodup _,
        fun x member y member' same => foreign member (same ▸ member')⟩
    · by_cases atSource : parent = source
      · simp [atSource, emptied]
      · exact others atSource atTarget ▸ linked.nodup parent
  · have none := @not_adjacent_first _ _ _ source x y linked
    have prev := @Linked.prev _ _ _ linked x y
    rw [adjacent]
    simp only [Links.moveChildren, linked.last]
    grind
  · have none := @not_adjacent_last _ _ _ source x y linked
    have alone := @not_adjacent_last _ _ _ target x y linked
    have next := @Linked.next _ _ _ linked x y
    have ends : (forest target).getLast? = some x → x ∈ forest target := mem_of_getLast?
    rw [adjacent]
    simp only [Links.moveChildren, linked.last]
    grind

end Linked

end Links

end Coppice.Std
