import Coppice.Kindle.Safety
import Mathlib.Data.List.Count
import Mathlib.Data.List.TakeWhile

/-!
# Links of Kindle books

A rewritten link names a document, a flow or a resource of its book. Names are made twice: where
the thing is read, from its bytes, and where it is linked, from the link. Whether a link dangles
is the question whether the two agree.
-/

namespace Coppice.Kindle

open Coppice.Std Coppice.Std.Checked List

section Names

variable {i j width : Nat} {name front back : List Char}

theorem numbered_inj :
    front ++ pad width i ++ back = front ++ pad width j ++ back ↔ i = j := by
  refine ⟨fun same => ?_, fun same => same ▸ rfl⟩
  exact pad_injective (append_cancel_left (append_cancel_right same))

theorem sectionName_inj : sectionName i = sectionName j ↔ i = j := numbered_inj

theorem anchorId_injective {p q : Nat} (same : anchorId p = anchorId q) : p = q :=
  pad_injective (append_cancel_left same)

theorem flowName_inj {type type' : ContentType} :
    flowName i type = flowName j type' ↔ i = j ∧ type.isMarkup = type'.isMarkup := by
  unfold flowName
  cases type.isMarkup with
  | true =>
    cases type'.isMarkup with
    | true => exact numbered_inj.trans (and_iff_left rfl).symm
    | false =>
      refine ⟨fun same => ?_, fun same => nomatch same.2⟩
      have heads : some 'f' = some 's' := congrArg List.head? same
      exact absurd heads (by decide)
  | false =>
    cases type'.isMarkup with
    | true =>
      refine ⟨fun same => ?_, fun same => nomatch same.2⟩
      have heads : some 's' = some 'f' := congrArg List.head? same
      exact absurd heads (by decide)
    | false => exact numbered_inj.trans (and_iff_left rfl).symm

theorem imageName_inj {left right : String} (plain : '.' ∉ left.toList) :
    imageName i left = imageName j right ↔ i = j ∧ left = right := by
  constructor
  · intro same
    unfold imageName at same
    rw [append_assoc, append_assoc] at same
    have parts := (append_cons_inj_of_notMem (notMem_pad rfl) plain).1
      (append_cancel_left same)
    exact ⟨pad_injective parts.1, String.toList_injective parts.2.2⟩
  · rintro ⟨rfl, rfl⟩
    rfl

/-- The file part of a link. -/
def linkedFile (href : List Char) : List Char := href.takeWhile (· ≠ '#')

theorem linkedFile_plain (plain : '#' ∉ name) : linkedFile name = name := by
  refine takeWhile_eq_self_iff.2 fun c member => decide_eq_true ?_
  rintro rfl
  exact plain member

theorem linkedFile_anchored (plain : '#' ∉ name) (anchor : List Char) :
    linkedFile (name ++ '#' :: anchor) = name := by
  have stops : linkedFile ('#' :: anchor) = [] := rfl
  rw [linkedFile, takeWhile_append_of_pos, ← linkedFile, stops, append_nil]
  intro c member
  refine decide_eq_true ?_
  rintro rfl
  exact plain member

theorem hash_notMem_numbered (start : '#' ∉ front)
    (rest : '#' ∉ back) : '#' ∉ front ++ pad width i ++ back := by
  rw [mem_append, mem_append, not_or, not_or]
  exact ⟨⟨start, notMem_pad rfl⟩, rest⟩

theorem hash_notMem_sectionName (index : Nat) : '#' ∉ sectionName index :=
  hash_notMem_numbered (by decide) (by decide)

theorem hash_notMem_flowName (index : Nat) (type : ContentType) : '#' ∉ flowName index type := by
  unfold flowName
  split <;> exact hash_notMem_numbered (by decide) (by decide)

theorem hash_notMem_imageName (index : Nat) {extension : String} (plain : '#' ∉ extension.toList) :
    '#' ∉ imageName index extension :=
  hash_notMem_numbered (by decide) (not_mem_cons_of_ne_of_not_mem (by decide) plain)

theorem plain_embedExtension (type : ContentType) :
    '#' ∉ (embedExtension type).toList ∧ '.' ∉ (embedExtension type).toList := by
  unfold embedExtension
  split
  · decide
  · exact ⟨type.hash_notMem_extension, type.dot_notMem_extension⟩

end Names

section Statement

/-- The rewritten links of a section, with what each one addresses in the file. -/
def SectionMarkup.links : SectionMarkup → List (Reference × List Char)
  | mobi6 _ _ pieces => pieces.filterMap fun
      | .image number src => some (.image number, src)
      | .link position href => some (.position position, href)
      | _ => none
  | kf8 pieces => pieces.filterMap fun
      | .link uri href => (uriReference uri).map fun reference => (reference, href)
      | .text _ => none

/-- The ids of the anchors planted in a section. -/
def SectionMarkup.anchors : SectionMarkup → List (List Char)
  | mobi6 _ _ pieces => (plantedPositions pieces).map anchorId
  | kf8 _ => []

variable (book : MobiBook)

/-- The target of a link exists in the file. -/
def MobiBook.Addresses : Reference → Prop
  | .fragment index => index < book.space.fragmentCount
  | .flow index _ => index < book.space.flowTable.length
  | .embed number _ => 1 ≤ number ∧ number ≤ book.resources.length
  | .image number => 1 ≤ number ∧ number ≤ book.resources.length
  | .position offset => book.space.body.1 ≤ offset ∧ offset < book.space.body.2

/-- The names a link can lead to. -/
def MobiBook.members : List (List Char) :=
  book.sections.map MobiSection.name ++ (book.flows.map MobiFlow.name ++
    book.resources.map MobiResource.name)

/-- The document a link names; without a file it is the document the link stands in. -/
def resolve (part : MobiSection) (href : List Char) : List Char :=
  match linkedFile href with
  | [] => part.name
  | file => file

/-- The anchor of a position is planted once in the section with this index, and nowhere else. -/
def MobiBook.Planted (position index : Nat) : Prop :=
  ∀ other part, book.sections[other]? = some part →
    part.markup.anchors.count (anchorId position) = if other = index then 1 else 0

/-- A link names an existing member, and a `filepos` link the section with its anchor. -/
structure MobiBook.Resolves (part : MobiSection) (link : Reference × List Char) : Prop where
  member : resolve part link.2 ∈ book.members
  anchored : ∀ position, link.1 = .position position → ∃ index target,
    book.sections[index]? = some target ∧ resolve part link.2 = target.name ∧
      book.Planted position index

/-- No link of the book whose target exists in the file dangles. -/
def MobiBook.NoDanglingLinks : Prop :=
  ∀ part ∈ book.sections, ∀ link ∈ part.markup.links, book.Addresses link.1 →
    book.Resolves part link

/-- What makes a link name the thing it addresses. -/
def MobiBook.Agrees : Reference → Prop
  | .fragment index => ∀ target, book.space.targets[index]? = some target →
      target.1 < book.sections.length
  | .flow index type => index ≠ 0 ∧ ∀ flow, book.flows[index - 1]? = some flow →
      (type.isMarkup = true ↔ flow.contentType = .xml)
  | .embed number type => ∀ resource, book.resources[number - 1]? = some resource →
      resource.contentType.isImage = true ∧ embedExtension type = resource.contentType.extension
  | .image number => ∀ resource, book.resources[number - 1]? = some resource →
      resource.contentType = .jpeg
  | .position offset => offset ∈ book.space.positions ∧ ∃ index part,
      book.sections[index]? = some part ∧ part.textStart ≤ offset ∧
        (offset < part.textStart + part.textLength ∨
          index = 0 ∧ offset = part.textStart + part.textLength)

end Statement

section Facts

/-- The range of text of a section. -/
def MobiSection.range (part : MobiSection) : Nat × Nat :=
  (part.textStart, part.textStart + part.textLength)

/-- Where a rewritten link leads, by what it addresses. -/
def MobiBook.hrefOf (book : MobiBook) (index : Nat) (part : MobiSection) : Reference → List Char
  | .fragment fragment => ((book.space.targets[fragment]?).map (fragmentHref index)).getD
      (sectionName index)
  | .flow flow type => flowName flow type
  | .embed number type => imageName (number - 1) (embedExtension type)
  | .image number => imageName (number - 1) "jpg"
  | .position offset => fileposHref part.textStart (book.sections.map MobiSection.range) offset

/-- The sections have text between them, and each has the anchors of the positions in its range,
its end included. -/
structure MobiBook.Anchored (book : MobiBook) : Prop where
  spaced : Spaced book.space.body (book.sections.map MobiSection.range)
  anchors : ∀ part ∈ book.sections, ∃ positions : List Nat,
    part.markup.anchors = positions.map anchorId ∧ positions.Nodup ∧ ∀ position,
      position ∈ positions ↔ position ∈ book.space.positions ∧
        part.range.1 ≤ position ∧ position ≤ part.range.2

/-- What opening a book makes true of its names, links and anchors. -/
structure MobiBook.Linked (book : MobiBook) : Prop where
  sections : ∀ index part, book.sections[index]? = some part → part.name = sectionName index
  flows : ∀ index flow, book.flows[index]? = some flow →
    flow.name = flowName (index + 1) flow.contentType ∧
      (flow.contentType = .xml ∨ flow.contentType = .txt)
  flowCount : book.flows.length = book.space.flowTable.length - 1
  resources : ResourcesNamed book.resources
  links : ∀ index part, book.sections[index]? = some part → ∀ link ∈ part.markup.links,
    link.2 = book.hrefOf index part link.1
  positions : (∀ part ∈ book.sections, ∀ link ∈ part.markup.links, ∀ offset,
    link.1 ≠ .position offset) ∨ book.Anchored

end Facts

variable {book : MobiBook} {index partBase : Nat} {part : MobiSection}
  {infer : List UInt8 → Option String} {link : Reference × List Char} {α : Type} {items : List α}
  {name : List Char} {flow : MobiFlow}

section Members

theorem mem_members : name ∈ book.members ↔
    (∃ part ∈ book.sections, part.name = name) ∨ (∃ flow ∈ book.flows, flow.name = name) ∨
      ∃ resource ∈ book.resources, resource.name = name := by
  rw [MobiBook.members, mem_append, mem_append, mem_map, mem_map, mem_map]

/-- The first letter of a name tells a section, a flow and a resource apart. -/
inductive NameKind where
  | part
  | flow
  | resource

def kindOf (name : List Char) : Option NameKind :=
  match name.head? with
  | some 'p' => some .part
  | some 'f' => some .flow
  | some 's' => some .flow
  | some 'i' => some .resource
  | some 'r' => some .resource
  | _ => none

theorem kindOf_flowName (index : Nat) (type : ContentType) :
    kindOf (flowName index type) = some .flow := by
  unfold flowName
  split
  · rfl
  · rfl

variable (linked : book.Linked)
include linked

theorem MobiBook.Linked.kindOf_section (member : part ∈ book.sections) :
    kindOf part.name = some .part := by
  obtain ⟨index, found⟩ := mem_iff_getElem?.1 member
  rw [linked.sections index part found]
  rfl

theorem MobiBook.Linked.kindOf_flow
    (member : flow ∈ book.flows) : kindOf flow.name = some .flow := by
  obtain ⟨index, found⟩ := mem_iff_getElem?.1 member
  rw [(linked.flows index flow found).1]
  exact kindOf_flowName _ _

theorem MobiBook.Linked.kindOf_resource {resource : MobiResource}
    (member : resource ∈ book.resources) : kindOf resource.name = some .resource := by
  obtain ⟨index, found⟩ := mem_iff_getElem?.1 member
  rw [linked.resources index resource found]
  split
  · rfl
  · rfl

theorem MobiBook.Linked.section_mem :
    sectionName index ∈ book.members ↔ index < book.sections.length := by
  rw [mem_members]
  constructor
  · rintro (⟨part, member, named⟩ | ⟨flow, member, named⟩ | ⟨resource, member, named⟩)
    · obtain ⟨other, found⟩ := mem_iff_getElem?.1 member
      rw [linked.sections other part found, sectionName_inj] at named
      exact named ▸ (List.getElem?_eq_some_iff.1 found).1
    · have kind := linked.kindOf_flow member
      rw [named] at kind
      cases kind
    · have kind := linked.kindOf_resource member
      rw [named] at kind
      cases kind
  · intro inside
    refine .inl ⟨book.sections[index], getElem_mem inside, ?_⟩
    exact linked.sections index _ (getElem?_eq_getElem inside)

theorem MobiBook.Linked.flow_mem {type : ContentType} :
    flowName index type ∈ book.members ↔ index ≠ 0 ∧ ∃ flow, book.flows[index - 1]? = some flow ∧
      type.isMarkup = flow.contentType.isMarkup := by
  rw [mem_members]
  constructor
  · rintro (⟨part, member, named⟩ | ⟨flow, member, named⟩ | ⟨resource, member, named⟩)
    · have kind := linked.kindOf_section member
      rw [named, kindOf_flowName] at kind
      cases kind
    · obtain ⟨other, found⟩ := mem_iff_getElem?.1 member
      rw [(linked.flows other flow found).1, flowName_inj] at named
      obtain ⟨rfl, markup⟩ := named
      exact ⟨Nat.succ_ne_zero _, flow, found, markup.symm⟩
    · have kind := linked.kindOf_resource member
      rw [named, kindOf_flowName] at kind
      cases kind
  · rintro ⟨positive, flow, found, markup⟩
    refine .inr (.inl ⟨flow, mem_of_getElem? found, ?_⟩)
    rw [(linked.flows _ flow found).1, flowName_inj]
    exact ⟨by omega, markup.symm⟩

theorem MobiBook.Linked.image_mem {extension : String} (plain : '.' ∉ extension.toList) :
    imageName index extension ∈ book.members ↔ ∃ resource, book.resources[index]? = some resource ∧
      resource.contentType.isImage = true ∧ extension = resource.contentType.extension := by
  rw [mem_members]
  constructor
  · rintro (⟨part, member, named⟩ | ⟨flow, member, named⟩ | ⟨resource, member, named⟩)
    · have kind := linked.kindOf_section member
      rw [named] at kind
      cases kind
    · have kind := linked.kindOf_flow member
      rw [named] at kind
      cases kind
    · obtain ⟨other, found⟩ := mem_iff_getElem?.1 member
      rw [linked.resources other resource found] at named
      split at named
      · obtain ⟨rfl, same⟩ := (imageName_inj plain).1 named.symm
        exact ⟨resource, found, ‹_›, same⟩
      · have heads : some 'r' = some 'i' := congrArg List.head? named
        exact absurd heads (by decide)
  · rintro ⟨resource, found, image, rfl⟩
    refine .inr (.inr ⟨resource, mem_of_getElem? found, ?_⟩)
    rw [linked.resources index resource found, if_pos image]

end Members

section Resolution

variable {position i j : Nat} {ranges : List (Nat × Nat)}

theorem resolve_of_ne {href : List Char} (nonempty : linkedFile href ≠ []) :
    resolve part href = linkedFile href := by
  unfold resolve
  split
  · exact absurd ‹_› nonempty
  · rfl

theorem resolve_plain (plain : '#' ∉ name) (nonempty : name ≠ []) :
    resolve part name = name := by
  have file := linkedFile_plain plain
  rw [resolve_of_ne (by rwa [file]), file]

theorem resolve_section (index : Nat) (anchor : List Char) :
    resolve part (sectionName index ++ '#' :: anchor) = sectionName index := by
  have file := linkedFile_anchored (hash_notMem_sectionName index) anchor
  rw [resolve_of_ne (by rw [file]; nofun), file]

theorem resolve_here (anchor : List Char) : resolve part ('#' :: anchor) = part.name := rfl

/-- A fragment's link resolves to the section it lands in. -/
theorem resolve_fragment (named : part.name = sectionName index)
    (target : Nat × List Char) :
    resolve part (fragmentHref index target) = sectionName target.1 := by
  obtain ⟨place, aid⟩ := target
  cases aid with
  | nil => exact resolve_plain (hash_notMem_sectionName place) nofun
  | cons first rest =>
    change resolve part (if place = index then _ else _) = _
    split
    · rw [resolve_here, named, ‹place = index›]
    · exact resolve_section place _

/-- Closed ranges with a gap between them share no position. -/
theorem Spaced.unique {body : Nat × Nat} (spaced : Spaced body ranges)
    {left right : Nat × Nat} (first : ranges[i]? = some left) (second : ranges[j]? = some right)
    (inLeft : left.1 ≤ position ∧ position ≤ left.2)
    (inRight : right.1 ≤ position ∧ position ≤ right.2) : i = j := by
  obtain ⟨hi, rfl⟩ := List.getElem?_eq_some_iff.1 first
  obtain ⟨hj, rfl⟩ := List.getElem?_eq_some_iff.1 second
  have apart := pairwise_iff_getElem.1 spaced.apart
  rcases Nat.lt_trichotomy i j with before | same | after
  · have := apart i j hi hj before
    omega
  · exact same
  · have := apart j i hj hi after
    omega

/-- The section a position resolves to: the one whose half-open range holds it, else the first. -/
theorem targetSection_spec (ranges : List (Nat × Nat)) (position : Nat) :
    (∃ range, ranges[targetSection ranges position]? = some range ∧ range.1 ≤ position ∧
      position < range.2) ∨
    targetSection ranges position = 0 ∧
      ∀ range ∈ ranges, ¬(range.1 ≤ position ∧ position < range.2) := by
  unfold targetSection
  cases found : ranges.findIdx? fun range => range.1 ≤ position ∧ position < range.2 with
  | none =>
    refine .inr ⟨rfl, fun range member inside => ?_⟩
    have outside := findIdx?_eq_none_iff.1 found range member
    exact absurd (decide_eq_true inside) (by rw [outside]; decide)
  | some index =>
    obtain ⟨listed, holds, -⟩ := findIdx?_eq_some_iff_getElem.1 found
    exact .inl ⟨_, getElem?_eq_getElem listed, of_decide_eq_true holds⟩

theorem targetSection_lt (nonempty : book.sections ≠ []) (position : Nat) :
    targetSection (book.sections.map MobiSection.range) position < book.sections.length := by
  rcases targetSection_spec (book.sections.map MobiSection.range) position with
    ⟨range, found, -⟩ | ⟨first, -⟩
  · simpa using (List.getElem?_eq_some_iff.1 found).1
  · rw [first]
    exact length_pos_iff.2 nonempty

theorem MobiBook.Anchored.section_unique (anchored : book.Anchored)
    {left right : MobiSection} (first : book.sections[i]? = some left)
    (second : book.sections[j]? = some right)
    (inLeft : left.range.1 ≤ position ∧ position ≤ left.range.2)
    (inRight : right.range.1 ≤ position ∧ position ≤ right.range.2) : i = j := by
  refine anchored.spaced.unique ?_ ?_ inLeft inRight
  · rw [getElem?_map, first, Option.map_some]
  · rw [getElem?_map, second, Option.map_some]

/-- A `filepos` link resolves to the section its position is looked up in. -/
theorem resolve_filepos (linked : book.Linked) (anchored : book.Anchored)
    (found : book.sections[index]? = some part) (position : Nat) :
    resolve part (fileposHref part.textStart (book.sections.map MobiSection.range) position) =
      sectionName (targetSection (book.sections.map MobiSection.range) position) := by
  unfold fileposHref
  dsimp only
  generalize targetSection (book.sections.map MobiSection.range) position = target
  split
  · rename_i here
    rw [getElem?_map] at here
    cases landing : book.sections[target]? with
    | none =>
      rw [landing] at here
      cases here
    | some other =>
      rw [landing] at here
      have starts : other.textStart = part.textStart := of_decide_eq_true here
      have same : target = index := by
        refine @MobiBook.Anchored.section_unique _ part.textStart _ _ anchored _ _
          landing found ?_ ?_
        all_goals
          dsimp only [MobiSection.range]
          omega
      rw [nil_append, resolve_here, linked.sections index part found, same]
  · exact resolve_section target _

theorem MobiBook.Anchored.count (anchored : book.Anchored) (member : part ∈ book.sections)
    (position : Nat) : part.markup.anchors.count (anchorId position) =
      if position ∈ book.space.positions ∧ part.range.1 ≤ position ∧ position ≤ part.range.2
        then 1 else 0 := by
  obtain ⟨positions, anchors, nodup, inside⟩ := anchored.anchors part member
  rw [anchors, count_map_of_injective positions anchorId fun _ _ => anchorId_injective,
    nodup.count]
  exact if_congr (inside position) rfl rfl

/-- The anchor of a position is where the link to it leads exactly if the position was collected
and lies in a range, or at the end of the first one. -/
theorem planted_iff (anchored : book.Anchored) (position : Nat) :
    book.Planted position (targetSection (book.sections.map MobiSection.range) position) ∧
        book.sections ≠ [] ↔ book.Agrees (.position position) := by
  generalize landing : targetSection (book.sections.map MobiSection.range) position = target
  have spec := targetSection_spec (book.sections.map MobiSection.range) position
  rw [landing] at spec
  constructor
  · rintro ⟨planted, nonempty⟩
    have inside : target < book.sections.length := landing ▸ targetSection_lt nonempty position
    have found := getElem?_eq_getElem inside
    have once := planted target _ found
    rw [if_pos rfl, anchored.count (getElem_mem inside)] at once
    split at once
    · rename_i holds
      refine ⟨holds.1, target, _, found, holds.2.1, ?_⟩
      rcases Nat.lt_or_eq_of_le holds.2.2 with before | at_end
      · exact .inl before
      rcases spec with ⟨range, listed, holdsRange⟩ | ⟨first, -⟩
      · rw [getElem?_map, found, Option.map_some] at listed
        cases listed
        exact .inl holdsRange.2
      · exact .inr ⟨first, at_end⟩
    · cases once
  · rintro ⟨collected, index, part, found, start, stop⟩
    have closed : part.range.1 ≤ position ∧ position ≤ part.range.2 := by
      dsimp only [MobiSection.range]
      omega
    -- The link leads to the section that holds the position.
    have same : target = index := by
      rcases spec with ⟨range, listed, holds⟩ | ⟨first, none⟩
      · rw [getElem?_map] at listed
        obtain ⟨other, foundOther, rfl⟩ := Option.map_eq_some_iff.1 listed
        exact anchored.section_unique foundOther found ⟨holds.1, Nat.le_of_lt holds.2⟩ closed
      · rcases stop with before | ⟨zero, -⟩
        · exact absurd ⟨start, before⟩ (none part.range (mem_map_of_mem (mem_of_getElem? found)))
        · rw [first, zero]
    subst same
    refine ⟨fun other otherPart foundOther => ?_, ?_⟩
    · rw [anchored.count (mem_of_getElem? foundOther)]
      refine if_congr ⟨fun holds => ?_, ?_⟩ rfl rfl
      · exact anchored.section_unique foundOther found holds.2 closed
      rintro rfl
      rw [found] at foundOther
      cases foundOther
      exact ⟨collected, closed⟩
    · exact ne_nil_of_mem (mem_of_getElem? found)

theorem exists_iff_forall_getElem? {P : α → Prop}
    (inside : index < items.length) :
    (∃ item, items[index]? = some item ∧ P item) ↔ ∀ item, items[index]? = some item → P item := by
  simp [getElem?_eq_getElem inside]

/-- A link names what it addresses exactly if the two names agree. -/
theorem resolves_iff (linked : book.Linked) (found : book.sections[index]? = some part)
    (listed : link ∈ part.markup.links)
    (addresses : book.Addresses link.1) : book.Resolves part link ↔ book.Agrees link.1 := by
  have named := linked.sections index part found
  have href := linked.links index part found link listed
  have inside := (List.getElem?_eq_some_iff.1 found).1
  obtain ⟨reference, text⟩ := link
  dsimp only at href addresses
  subst href
  have member_iff : (∀ offset, reference ≠ .position offset) →
      (book.Resolves part (reference, book.hrefOf index part reference) ↔
        resolve part (book.hrefOf index part reference) ∈ book.members) := by
    intro other
    refine ⟨MobiBook.Resolves.member, fun member => ⟨member, fun offset position => ?_⟩⟩
    exact absurd position (other offset)
  cases reference with
  | fragment fragment =>
    rw [member_iff nofun]
    cases target : book.space.targets[fragment]? with
    | none =>
      rw [MobiBook.hrefOf, target]
      change resolve part (sectionName index) ∈ _ ↔ _
      rw [resolve_plain (hash_notMem_sectionName index) nofun, linked.section_mem]
      refine ⟨fun _ landing known => ?_, fun _ => inside⟩
      rw [target] at known
      cases known
    | some landing =>
      rw [MobiBook.hrefOf, target]
      change resolve part (fragmentHref index landing) ∈ _ ↔ _
      rw [resolve_fragment named, linked.section_mem]
      refine ⟨fun known other same => ?_, fun agrees => agrees landing target⟩
      rw [target] at same
      cases same
      exact known
  | flow flow type =>
    have named : flowName flow type ≠ [] := by
      intro empty
      have kind := kindOf_flowName flow type
      rw [empty] at kind
      cases kind
    rw [member_iff nofun, MobiBook.hrefOf, resolve_plain (hash_notMem_flowName flow type) named,
      linked.flow_mem]
    have count := linked.flowCount
    have addresses : flow < book.space.flowTable.length := addresses
    have markup : ∀ {known}, book.flows[flow - 1]? = some known →
        (type.isMarkup = known.contentType.isMarkup ↔
          (type.isMarkup = true ↔ known.contentType = .xml)) := by
      intro known listed
      rcases (linked.flows _ known listed).2 with xml | txt
      · rw [xml]
        cases type.isMarkup <;> decide
      · rw [txt]
        cases type.isMarkup <;> decide
    refine and_congr_right fun positive => ?_
    rw [exists_iff_forall_getElem? (by omega)]
    exact forall₂_congr fun known listed => markup listed
  | embed number type =>
    have plain := plain_embedExtension type
    obtain ⟨positive, bounded⟩ := addresses
    rw [member_iff nofun, MobiBook.hrefOf, resolve_plain (hash_notMem_imageName _ plain.1) nofun,
      linked.image_mem plain.2]
    exact exists_iff_forall_getElem? (by omega)
  | image number =>
    obtain ⟨positive, bounded⟩ := addresses
    rw [member_iff nofun, MobiBook.hrefOf,
      resolve_plain (hash_notMem_imageName _ (by decide)) nofun,
      linked.image_mem (by decide), exists_iff_forall_getElem? (by omega)]
    refine forall₂_congr fun resource _ => ⟨fun same => ?_, fun jpeg => ?_⟩
    · exact ContentType.extension_eq_jpg.1 same.2.symm
    · rw [jpeg]
      exact ⟨by decide, rfl⟩
  | position offset =>
    have anchored := linked.positions.resolve_left fun never =>
      never part (mem_of_getElem? found) _ listed offset rfl
    have resolved := resolve_filepos linked anchored found offset
    rw [← planted_iff anchored]
    have some : book.sections ≠ [] := ne_nil_of_mem (mem_of_getElem? found)
    have landing := targetSection_lt some offset
    constructor
    · rintro ⟨-, anchored⟩
      obtain ⟨target, other, foundOther, same, planted⟩ := anchored offset rfl
      have name := linked.sections target other foundOther
      rw [MobiBook.hrefOf, resolved, name, sectionName_inj] at same
      exact ⟨same ▸ planted, some⟩
    · rintro ⟨planted, -⟩
      refine ⟨?_, ?_⟩
      · rw [MobiBook.hrefOf, resolved]
        exact linked.section_mem.2 landing
      rintro position ⟨⟩
      refine ⟨_, _, getElem?_eq_getElem landing, ?_, planted⟩
      rw [MobiBook.hrefOf, resolved]
      exact (linked.sections _ _ (getElem?_eq_getElem landing)).symm

end Resolution

section Building

variable {db : PalmDatabase} {header : PartHeader} {text : List UInt8} {parts : Parts}
  {anchors : List Nat}

theorem getElem?_of_mapM_zipIdx {build : Nat → α → Checked FileError MobiSection}
    {sections : List MobiSection}
    (built : (items.zipIdx.mapM fun entry => build entry.2 entry.1) = .ok sections)
    (found : sections[index]? = some part) :
    ∃ entry, items[index]? = some entry ∧ build index entry = .ok part := by
  have each := forall₂_of_mapM built
  obtain ⟨inside, rfl⟩ := List.getElem?_eq_some_iff.1 found
  have sourced : index < items.length := by
    have := each.length_eq
    rw [length_zipIdx] at this
    omega
  have made := each.get (by rwa [length_zipIdx]) inside
  rw [get_eq_getElem, getElem_zipIdx, Nat.zero_add] at made
  exact ⟨items[index], getElem?_eq_getElem sourced, made⟩

/-- A `kindle:` link leads to what it addresses. -/
theorem rewriteKindleUri_eq {uri : List Char} {reference : Reference}
    (addressed : uriReference uri = some reference) (index : Nat) (book : MobiBook)
    (part : MobiSection) : rewriteKindleUri uri index book.space.targets =
      book.hrefOf index part reference := by
  unfold uriReference at addressed
  unfold rewriteKindleUri
  dsimp only at addressed ⊢
  split at addressed
  · obtain ⟨fragment, read, rfl⟩ := Option.map_eq_some_iff.1 addressed
    rw [read, Option.bind_some, MobiBook.hrefOf]
    cases book.space.targets[fragment]? with
    | none => rfl
    | some target => rfl
  · split at addressed
    · cases addressed
      rfl
    · cases addressed
      rfl
    · cases addressed

theorem uriReference_ne_position (uri : List Char) (offset : Nat) :
    uriReference uri ≠ some (.position offset) := by
  unfold uriReference
  dsimp only
  split
  · intro same
    obtain ⟨fragment, -, position⟩ := Option.map_eq_some_iff.1 same
    cases position
  · split
    all_goals nofun

theorem kf8Section_ok {encoding : Nat} {targets : List (Nat × List Char)}
    {document : List UInt8 × Nat} (built : kf8Section encoding targets index document = .ok part) :
    part.name = sectionName index ∧ ∃ pieces, part.markup = .kf8 pieces ∧ ∀ uri href,
      Kf8Piece.link uri href ∈ pieces → href = rewriteKindleUri uri index targets := by
  obtain ⟨pieces, rewritten, made⟩ := bind_eq_ok.1 built
  cases made
  exact ⟨rfl, pieces, rfl, (returns_rewriteKf8Markup _ _ _).post rewritten⟩

theorem kf8_links {pieces : List Kf8Piece}
    (listed : link ∈ (SectionMarkup.kf8 pieces).links) :
    ∃ uri, Kf8Piece.link uri link.2 ∈ pieces ∧ uriReference uri = some link.1 := by
  obtain ⟨piece, member, kept⟩ := mem_filterMap.1 listed
  cases piece with
  | text chars => cases kept
  | link uri href =>
    obtain ⟨reference, addressed, rfl⟩ := Option.map_eq_some_iff.1 kept
    exact ⟨uri, member, addressed⟩

theorem getElem?_flowsOf {flowTable : List (Nat × Nat)}
    (found : (flowsOf text flowTable)[index]? = some flow) :
    flow.name = flowName (index + 1) flow.contentType ∧
      (flow.contentType = .xml ∨ flow.contentType = .txt) := by
  rw [flowsOf, getElem?_map, getElem?_zipIdx, Nat.zero_add] at found
  obtain ⟨entry, listed, rfl⟩ := Option.map_eq_some_iff.1 found
  obtain ⟨range, -, rfl⟩ := Option.map_eq_some_iff.1 listed
  refine ⟨rfl, ?_⟩
  change flowContentType _ = _ ∨ flowContentType _ = _
  unfold flowContentType
  split
  · exact .inl rfl
  · exact .inr rfl

theorem linked_kf8
    (built : buildKf8Sections infer db partBase header text = .ok parts)
    (sections : book.sections = parts.sections) (flows : book.flows = parts.flows)
    (space : book.space = parts.space) (resources : ResourcesNamed book.resources) :
    book.Linked := by
  obtain ⟨flowTable, -, built⟩ := bind_eq_ok.1 built
  obtain ⟨skeletons, -, built⟩ := bind_eq_ok.1 built
  obtain ⟨fragments, -, built⟩ := bind_eq_ok.1 built
  generalize kf8Documents _ skeletons fragments header.textEncoding = assembled at built
  obtain ⟨documents, targets⟩ := assembled
  obtain ⟨made, traversed, built⟩ := bind_eq_ok.1 built
  cases built
  have each : ∀ {index part}, book.sections[index]? = some part →
      part.name = sectionName index ∧ ∃ pieces, part.markup = .kf8 pieces ∧ ∀ uri href,
        Kf8Piece.link uri href ∈ pieces → href = rewriteKindleUri uri index targets := by
    intro index part found
    rw [sections] at found
    obtain ⟨document, -, one⟩ := getElem?_of_mapM_zipIdx traversed found
    exact kf8Section_ok one
  constructor
  case sections => exact fun index part found => (each found).1
  case flows =>
    intro index flow found
    rw [flows] at found
    exact getElem?_flowsOf found
  case flowCount =>
    rw [flows, space]
    simp only [flowsOf, length_map, length_zipIdx, length_tail]
  case resources => exact resources
  case links =>
    intro index part found link listed
    obtain ⟨-, pieces, markup, rewritten⟩ := each found
    rw [markup] at listed
    obtain ⟨uri, member, addressed⟩ := kf8_links listed
    have targeted : book.space.targets = targets := by rw [space]
    rw [rewritten uri link.2 member, ← targeted]
    exact rewriteKindleUri_eq addressed index book part
  case positions =>
    refine .inl fun part member link listed offset position => ?_
    obtain ⟨index, found⟩ := mem_iff_getElem?.1 member
    obtain ⟨-, pieces, markup, -⟩ := each found
    rw [markup] at listed
    obtain ⟨uri, -, addressed⟩ := kf8_links listed
    rw [position] at addressed
    exact uriReference_ne_position uri offset addressed

theorem takeWhile_eq_filter {p : α → Bool}
    (order : items.Pairwise fun first second => p second = true → p first = true) :
    items.takeWhile p = items.filter p ∧ items.dropWhile p = items.filter (!p ·) := by
  induction items with
  | nil => exact ⟨rfl, rfl⟩
  | cons item items ih =>
    obtain ⟨first, rest⟩ := pairwise_cons.1 order
    by_cases holds : p item = true
    · simp [holds, ih rest]
    have none : ∀ other ∈ items, p other = false := fun other member =>
      Bool.eq_false_iff.2 fun later => holds (first other member later)
    have all : items.filter (!p ·) = items := filter_eq_self.2 (by simpa using none)
    simpa [holds, all] using none

theorem mem_planted (sorted : anchors.Pairwise (· < ·)) {start stop position : Nat} :
    position ∈ (anchors.dropWhile (· < start)).takeWhile (· ≤ stop) ↔
      position ∈ anchors ∧ start ≤ position ∧ position ≤ stop := by
  rw [(takeWhile_eq_filter (sorted.imp ?_)).2, (takeWhile_eq_filter ((sorted.filter _).imp ?_)).1]
  · simp [and_assoc, and_comm]
  · simp only [decide_eq_true_eq]
    omega
  · simp only [decide_eq_true_eq]
    omega

/-- A section of a MOBI 6 book: its name, its range, its links and its anchors. -/
structure Mobi6Built (anchors : List Nat) (ranges : List (Nat × Nat)) (index : Nat)
    (range : Nat × Nat) (part : MobiSection) : Prop where
  name : part.name = sectionName index
  placed : part.range = range
  links : ∀ link ∈ part.markup.links, match link.1 with
    | .image number => link.2 = imageName (number - 1) "jpg"
    | .position offset => link.2 = fileposHref range.1 ranges offset
    | _ => False
  anchors : part.markup.anchors =
    ((anchors.dropWhile (· < range.1)).takeWhile (· ≤ range.2)).map anchorId

theorem mobi6Section_ok {lower : List UInt8} (same : lower.length = text.length)
    (held : text.length < 2 ^ 63) {ranges : List (Nat × Nat)} {range : Nat × Nat}
    (ordered : range.1 ≤ range.2) (inside : range.2 ≤ text.length)
    (built : mobi6Section db header text lower anchors ranges index range = .ok part) :
    Mobi6Built anchors ranges index range part := by
  obtain ⟨fragment, sliced, built⟩ := bind_eq_ok.1 built
  obtain ⟨lowerFragment, slicedLower, built⟩ := bind_eq_ok.1 built
  obtain ⟨pieces, rewritten, built⟩ := bind_eq_ok.1 built
  have length := ((returns_slice ordered inside).post sliced).2
  have lowerLength := ((returns_slice ordered (by omega)).post slicedLower).2
  have spec := (returns_rewriteMobi6Markup (by omega) (by omega) anchors ranges).post rewritten
  cases built
  constructor
  case name => rfl
  case placed => exact Prod.ext rfl (show range.1 + (range.2 - range.1) = range.2 by omega)
  case links =>
    intro link listed
    obtain ⟨piece, member, kept⟩ := mem_filterMap.1 listed
    have written := spec.1 piece member
    cases piece with
    | copied bytes | anchor position => cases kept
    | image number src | link position href =>
      cases kept
      exact written
  case anchors =>
    have stop : range.1 + fragment.length = range.2 := by omega
    change (plantedPositions pieces).map anchorId = _
    rw [spec.2, stop]

theorem linked_mobi6 (held : text.length < 2 ^ 63)
    (built : buildMobi6Sections db header text = .ok parts)
    (sections : book.sections = parts.sections) (flows : book.flows = parts.flows)
    (space : book.space = parts.space) (resources : ResourcesNamed book.resources) :
    book.Linked := by
  have same : (text.map asciiLower).length = text.length := length_map _
  have body := bodyRange_bounds (text.map asciiLower)
  obtain ⟨anchors, collected, built⟩ := bind_eq_ok.1 built
  obtain ⟨ranges, paged, built⟩ := bind_eq_ok.1 built
  obtain ⟨made, traversed, built⟩ := bind_eq_ok.1 built
  cases built
  have sorted := (returns_collectFileposTargets (by omega)).post collected
  have spaced := (returns_pageRanges (by omega) body.1 body.2).post paged
  have each : ∀ {index part}, book.sections[index]? = some part → ∃ range,
      ranges[index]? = some range ∧ Mobi6Built anchors ranges index range part := by
    intro index part found
    rw [sections] at found
    obtain ⟨range, listed, one⟩ := getElem?_of_mapM_zipIdx traversed found
    have inside := spaced.inside range (mem_of_getElem? listed)
    exact ⟨range, listed, mobi6Section_ok same held inside.2.1 (by omega) one⟩
  have mapped : book.sections.map MobiSection.range = ranges := by
    have lengths := (forall₂_of_mapM traversed).length_eq
    rw [length_zipIdx] at lengths
    refine ext_getElem (by rw [length_map, sections, lengths]) fun index inside outside => ?_
    rw [length_map] at inside
    obtain ⟨range, listed, one⟩ := each (getElem?_eq_getElem inside)
    rw [getElem_map, one.placed]
    exact ((List.getElem?_eq_some_iff.1 listed).2).symm
  have starts : ∀ {index range part}, Mobi6Built anchors ranges index range part →
      part.textStart = range.1 := fun one => congrArg Prod.fst one.placed
  constructor
  case sections =>
    intro index part found
    obtain ⟨range, -, one⟩ := each found
    exact one.name
  case flows =>
    intro index flow found
    rw [flows] at found
    cases found
  case flowCount =>
    rw [flows, space]
    rfl
  case resources => exact resources
  case links =>
    intro index part found link listed
    obtain ⟨range, -, one⟩ := each found
    have written := one.links link listed
    obtain ⟨reference, href⟩ := link
    cases reference with
    | image number => exact written
    | position offset =>
      rw [MobiBook.hrefOf, mapped, starts one]
      exact written
    | fragment index | flow index type | embed number type => cases written
  case positions =>
    refine .inr ⟨?_, fun part member => ?_⟩
    · rw [mapped, space]
      exact spaced
    obtain ⟨index, found⟩ := mem_iff_getElem?.1 member
    obtain ⟨range, -, one⟩ := each found
    refine ⟨_, one.anchors, ?_, fun position => ?_⟩
    · have sub := (takeWhile_sublist (· ≤ range.2)).trans
        (dropWhile_sublist (l := anchors) (· < range.1))
      exact (sorted.sublist sub).imp Nat.ne_of_lt
    · rw [mem_planted sorted, one.placed, space]

end Building

section Opening

/-- Whatever the text records are, the text that was read is within the limit. -/
theorem readText_bounded {db : PalmDatabase} {header : PartHeader}
    {text : List UInt8} (read : readText db partBase header = .ok text) :
    text.length ≤ maxTextBytes := by
  obtain ⟨decoder, -, folded⟩ := bind_eq_ok.1 read
  refine foldlM_rel (R := fun before after => before.length ≤ maxTextBytes →
    after.length ≤ maxTextBytes) (fun _ within => within) (fun first second within =>
      second (first within)) (fun before after offset _ one within => ?_) folded (Nat.zero_le _)
  obtain ⟨record, -, one⟩ := bind_eq_ok.1 one
  dsimp only at one
  split at one
  · cases one
    exact within
  obtain ⟨payload, -, one⟩ := bind_eq_ok.1 one
  obtain ⟨decoded, -, one⟩ := bind_eq_ok.1 one
  split at one
  · cases one
  · cases one
    exact Nat.le_of_not_lt ‹_›

theorem linked_of_opened {protection : Option String} {file : Image}
    (opened : MobiBook.openFile infer protection file = .ok book) : book.Linked := by
  cases protection with
  | some reason => cases opened
  | none =>
    obtain ⟨db, -, opened⟩ := bind_eq_ok.1 opened
    obtain ⟨⟨partBase, header⟩, active, opened⟩ := bind_eq_ok.1 opened
    obtain ⟨near, bounded⟩ := returns_activePart.post active
    dsimp only at opened
    split at opened
    · cases opened
    obtain ⟨text, read, opened⟩ := bind_eq_ok.1 opened
    obtain ⟨resources, listed, opened⟩ := bind_eq_ok.1 opened
    obtain ⟨parts, built, opened⟩ := bind_eq_ok.1 opened
    obtain ⟨navigation, -, opened⟩ := bind_eq_ok.1 opened
    have named := (returns_readResources near bounded).post listed
    have held : text.length < 2 ^ 63 := Nat.lt_of_le_of_lt (readText_bounded read) (by decide)
    cases opened
    unfold buildSections at built
    split at built
    · exact linked_kf8 built rfl rfl rfl named
    · exact linked_mobi6 held built rfl rfl rfl named

/-- The record list, the header and the text of a book with one image. -/
def imageBookBytes (image : List UInt8) : List UInt8 :=
  List.replicate 60 0 ++ bookmobi ++ List.replicate 8 0 ++ [0, 3] ++
    [0, 0, 0, 102, 0, 0, 0, 0, 0, 0, 0, 214, 0, 0, 0, 0, 0, 0, 0, 232, 0, 0, 0, 0] ++
    ([0, 1] ++ List.replicate 6 0 ++ [0, 1] ++ List.replicate 6 0 ++ mobiTag ++ [0, 0, 0, 96] ++
      List.replicate 84 0 ++ [0, 0, 0, 2]) ++
    ascii "<img recindex=\"1\">" ++ image

def sniffImage : List UInt8 → Option String
  | 0x89 :: _ => some "image/png"
  | 0xFF :: _ => some "image/jpeg"
  | _ => none

def pngBook : Image := ⟨imageBookBytes [0x89, 0x50, 0x4E, 0x47], by decide +kernel⟩

def jpegBook : Image := ⟨imageBookBytes [0xFF, 0xD8, 0xFF, 0xE0], by decide +kernel⟩

/-- The links of an opened book, section by section, the number of its resources and its names. -/
def linksAndNames (run : Checked FileError MobiBook) :
    Option (List (List (Reference × List Char)) × Nat × List (List Char)) :=
  match run with
  | .ok book => some (book.sections.map (·.markup.links), book.resources.length, book.members)
  | .error _ => none

end Opening

end Coppice.Kindle
