import Coppice.Collections.Edits

/-!
# Containers as shelves

A shelf is a container whose `kobo_shelf` flag is set, projected as in
`collections/src/shelf.rs`: a collection for its creating user, a reading list for whom
its visibility and rules admit. `Wrote` says what any mutation does to the shelves of a
user: those it changes carry its time, and those that go leave a tombstone of that time.
-/

namespace Coppice.Collections

open Coppice.Std Models List

/-- A container projected as a Kobo shelf. -/
structure ShelfProjection where
  shelfId : String
  name : String
  lastModified : Int
  items : List String
deriving DecidableEq, Repr

/-- The shelf changes a device should see relative to its previous sync. -/
structure ShelfSyncDelta where
  new : List ShelfProjection
  changed : List ShelfProjection
  deletedIds : List String
deriving DecidableEq, Repr

/-- How long a shelf tombstone is kept: 30 days. -/
def koboShelfTombstoneTtl : Int := 30 * 86400 * second

/-- `get_reading_list_rbac_for_user`, on a list and one joined row of its rules. -/
def rbacAdmits (userId : String) (minimumRole : Int) (list : Container)
    (rule : Option ReadingListRule) : Bool :=
  let baseRbac := rule.any fun rule => rule.userId = userId ∧ minimumRole ≤ rule.role
  list.creatingUserId = userId || (list.visibility = .isPublic && (baseRbac || rule.isNone)) ||
    (list.visibility = .isShared && baseRbac)

/-- A member of a collection is a series and stands for its books; one of a reading list
is a book. -/
def Member.standsFor (kind : ContainerKind) (member : Member) (book : Book) : Bool :=
  match kind with
  | .collection => book.seriesId = some member.memberId
  | .readingList => book.id = member.memberId

namespace ContainerStore

/-- The rules a list is left-joined with. -/
def joinedRules (store : ContainerStore) (listId : String) : List (Option ReadingListRule) :=
  match store.rules.filter fun rule => rule.readingListId = listId with
  | [] => [none]
  | rules => rules.map some

/-- `reading_list::Entity::find_for_user`: a list once per rule that admits the user. -/
def findForUser (store : ContainerStore) (userId : String) (minimumRole : Int) : List Container :=
  store.readingLists.rows.flatMap fun list =>
    ((store.joinedRules list.id).filter (rbacAdmits userId minimumRole list)).map fun _ => list

/-- The live books of the extensions that the members of a container stand for. -/
def joinedBooks (store : ContainerStore) (kind : ContainerKind) (id : String)
    (extensions : List String) : List (Member × Book) :=
  (store.memberRows kind id).flatMap fun member =>
    (store.books.filter fun book =>
      member.standsFor kind book ∧ book.extension ∈ extensions ∧
        book.deletedAt = none).map fun book => (member, book)

section Queries

variable [Host]

/-- Matching media ids of a collection, ordered by membership order and then by name. -/
def collectionItems (store : ContainerStore) (extensions : List String) (id : String) :
    List String :=
  (orderBy (fun row => row.1.displayOrder) (orderBy (fun row => row.2.name)
    (Host.scan (store.joinedBooks .collection id extensions)))).map fun row => row.2.id

/-- Matching media ids of a reading list, ordered by list order. -/
def readingListItems (store : ContainerStore) (extensions : List String) (id : String) :
    List String :=
  (orderBy (fun row => row.1.displayOrder)
    (Host.scan (store.joinedBooks .readingList id extensions))).map fun row => row.2.id

def project (store : ContainerStore) (extensions : List String) (kind : ContainerKind)
    (row : Container) : ShelfProjection :=
  { shelfId := row.id
    name := row.name
    lastModified := row.updatedAt
    items := match kind with
      | .collection => store.collectionItems extensions row.id
      | .readingList => store.readingListItems extensions row.id }

/-- All shelves the user should have on the device. -/
def shelvesForUser (store : ContainerStore) (user : Actor) (extensions : List String) :
    List ShelfProjection :=
  let collectionShelves :=
    orderBy Container.name (Host.scan (store.collections.rows.filter fun row =>
    row.koboShelf ∧ row.creatingUserId = user.id))
  -- a list with several rules comes back once per rule: the first occurrence is kept
  let readingListShelves := distinctBy Container.id (orderBy Container.id (orderBy Container.name
    (Host.scan ((store.findForUser user.id 1).filter Container.koboShelf))))
  let shelves := collectionShelves.map (store.project extensions .collection) ++
    readingListShelves.map (store.project extensions .readingList)
  orderBy ShelfProjection.name (orderBy ShelfProjection.shelfId shelves)

def pruneTombstones (store : ContainerStore) (now : Int) : ContainerStore :=
  { store with tombstones := store.tombstones.filter fun tombstone =>
      ¬tombstone.deletedAt < now - koboShelfTombstoneTtl }

/-- The shelf delta of a session; tombstones past their lifetime are pruned on the way. -/
def shelfSyncDelta (store : ContainerStore) (user : Actor) (now : Int)
    (previousSyncAt : Option Int) (extensions : List String) : ContainerStore × ShelfSyncDelta :=
  let store := store.pruneTombstones now
  let shelves := store.shelvesForUser user extensions
  match previousSyncAt with
  | none => (store, ⟨shelves, [], []⟩)
  | some since =>
    let deleted := orderBy ShelfTombstone.deletedAt (Host.scan (store.tombstones.filter
      fun tombstone => tombstone.userId = user.id ∧ since ≤ tombstone.deletedAt))
    (store, ⟨[], shelves.filter fun shelf => since ≤ shelf.lastModified,
      deleted.map ShelfTombstone.shelfId⟩)

end Queries
end ContainerStore

variable {store next : ContainerStore} {user : Actor} {extensions : List String}
  {shelf : ShelfProjection} {row : Container} {kind other : ContainerKind} {id : String}
  {written : Option Container} {listed : List Member} {left : List ShelfTombstone}

section Shelved

/-- The container is a shelf of the user. -/
def ContainerStore.Shelved (store : ContainerStore) (user : Actor) (kind : ContainerKind)
    (row : Container) : Prop :=
  row.koboShelf = true ∧ match kind with
    | .collection => row.creatingUserId = user.id
    | .readingList => ∃ rule ∈ store.joinedRules row.id, rbacAdmits user.id 1 row rule = true

/-- No id is used twice, nor by a container and a tombstone of the user. -/
structure IdsUnused (user : Actor) (store : ContainerStore) : Prop where
  distinct : ∀ kind, ((store.table kind).rows.map Container.id).Nodup
  disjoint : ∀ id kind other, (store.find kind id).isSome → (store.find other id).isSome →
    kind = other
  buried : ∀ tombstone ∈ store.tombstones, tombstone.userId = user.id →
    ∀ kind, store.find kind tombstone.shelfId = none

theorem mem_findForUser {userId : String} {minimumRole : Int} :
    row ∈ store.findForUser userId minimumRole ↔ row ∈ store.readingLists.rows ∧
      ∃ rule ∈ store.joinedRules row.id, rbacAdmits userId minimumRole row rule = true := by
  unfold ContainerStore.findForUser
  simp only [mem_flatMap, mem_map, mem_filter]
  constructor
  · rintro ⟨list, stored, rule, ⟨joined, admits⟩, rfl⟩
    exact ⟨stored, rule, joined, admits⟩
  · rintro ⟨stored, rule, joined, admits⟩
    exact ⟨row, stored, rule, ⟨joined, admits⟩, rfl⟩

theorem IdsUnused.find_iff (unused : IdsUnused user store) :
    store.find kind id = some row ↔ row ∈ (store.table kind).rows ∧ row.id = id :=
  lookup_eq_some_iff (unused.distinct kind)

/-- The shelves of a user are the containers that are shelves for them. -/
theorem mem_shelvesForUser [Host] (unused : IdsUnused user store) :
    shelf ∈ store.shelvesForUser user extensions ↔
      ∃ kind row, store.find kind row.id = some row ∧ store.Shelved user kind row ∧
        shelf = store.project extensions kind row := by
  have unique : ∀ row ∈ orderBy Container.id (orderBy Container.name
      (Host.scan ((store.findForUser user.id 1).filter Container.koboShelf))), ∀ other ∈
      orderBy Container.id (orderBy Container.name
      (Host.scan ((store.findForUser user.id 1).filter Container.koboShelf))),
      other.id = row.id → other = row := by
    simp only [mem_orderBy, Kobo.mem_scan, mem_filter, mem_findForUser]
    rintro row ⟨⟨stored, -⟩, -⟩ other ⟨⟨member, -⟩, -⟩ same
    exact inj_on_of_nodup_map (unused.distinct .readingList) member stored same
  unfold ContainerStore.shelvesForUser
  simp only [mem_orderBy, mem_append, mem_map, Kobo.mem_scan, mem_filter,
    decide_eq_true_eq]
  constructor
  · rintro (⟨row, ⟨stored, flagged, mine⟩, rfl⟩ | ⟨row, kept, rfl⟩)
    · exact ⟨.collection, row, unused.find_iff.mpr ⟨stored, rfl⟩, ⟨flagged, mine⟩, rfl⟩
    have member := mem_of_mem_distinctBy kept
    simp only [mem_orderBy, Kobo.mem_scan, mem_filter, mem_findForUser] at member
    obtain ⟨⟨stored, admitted⟩, flagged⟩ := member
    exact ⟨.readingList, row, unused.find_iff.mpr ⟨stored, rfl⟩, ⟨flagged, admitted⟩, rfl⟩
  · rintro ⟨kind, row, found, ⟨flagged, admitted⟩, rfl⟩
    have stored := (unused.find_iff.mp found).1
    cases kind with
    | collection => exact .inl ⟨row, ⟨stored, flagged, admitted⟩, rfl⟩
    | readingList =>
      have member : row ∈ orderBy Container.id (orderBy Container.name
          (Host.scan ((store.findForUser user.id 1).filter Container.koboShelf))) := by
        simp only [mem_orderBy, Kobo.mem_scan, mem_filter, mem_findForUser]
        exact ⟨⟨stored, admitted⟩, flagged⟩
      exact .inr ⟨row, (mem_distinctBy (unique row member)).mpr member, rfl⟩

end Shelved

section Frame

/-- What is read of a container is as it was. -/
structure Untouched (store next : ContainerStore) (kind : ContainerKind) (id : String) : Prop where
  find : next.find kind id = store.find kind id
  members : next.memberRows kind id = store.memberRows kind id
  rules : kind = .readingList → next.joinedRules id = store.joinedRules id

theorem joinedRules_congr
    (rules : (next.rules.filter fun rule => rule.readingListId = id) =
      store.rules.filter fun rule => rule.readingListId = id) :
    next.joinedRules id = store.joinedRules id := by
  unfold ContainerStore.joinedRules
  rw [rules]

theorem Untouched.shelved (untouched : Untouched store next kind row.id) :
    next.Shelved user kind row ↔ store.Shelved user kind row := by
  unfold ContainerStore.Shelved
  cases kind with
  | collection => rfl
  | readingList => rw [untouched.rules rfl]

theorem Untouched.project [Host] (untouched : Untouched store next kind row.id)
    (books : next.books = store.books) (extensions : List String) :
    next.project extensions kind row = store.project extensions kind row := by
  have joined : next.joinedBooks kind row.id extensions =
    store.joinedBooks kind row.id extensions := by
    unfold ContainerStore.joinedBooks
    rw [untouched.members, books]
  cases kind with
  | collection => simp [ContainerStore.project, ContainerStore.collectionItems, joined]
  | readingList => simp [ContainerStore.project, ContainerStore.readingListItems, joined]

end Frame

section Wrote

variable [Host] {call : Call} {now : Int}

/-- No container has the id, and no tombstone of the user names it. -/
structure ContainerStore.Free (store : ContainerStore) (user : Actor) (id : String) : Prop where
  find : ∀ kind, store.find kind id = none
  tombstones : ∀ tombstone ∈ store.tombstones, tombstone.userId = user.id →
    tombstone.shelfId ≠ id

/-- A call that creates a container gives it a free id, and one that deletes a reading list
among the shelves of the user deletes a list of their own. -/
structure Careful (user : Actor) (call : Call) (store : ContainerStore) : Prop where
  unused : ∀ kind id, call.Creates store kind id → store.find kind id = none → store.Free user id
  own : ∀ row, call.Deletes .readingList row.id → store.find .readingList row.id = some row →
    store.Shelved user .readingList row → row.creatingUserId = user.id

/-- What a mutation at time `now` does to the shelves of a user. -/
structure Wrote (user : Actor) (extensions : List String) (now : Int)
    (store next : ContainerStore) : Prop where
  stamped : ∀ shelf ∈ next.shelvesForUser user extensions,
    shelf ∈ store.shelvesForUser user extensions ∨ shelf.lastModified = now
  kept : ∀ shelf ∈ store.shelvesForUser user extensions,
    (∃ later ∈ next.shelvesForUser user extensions, later.shelfId = shelf.shelfId) ∨
      ∃ tombstone ∈ next.tombstones, tombstone.userId = user.id ∧
        tombstone.shelfId = shelf.shelfId ∧ tombstone.deletedAt = now
  tombstones : ∀ tombstone ∈ store.tombstones, tombstone ∈ next.tombstones
  dated : ∀ tombstone ∈ next.tombstones, tombstone ∈ store.tombstones ∨ tombstone.deletedAt = now

omit [Host] in
/-- Ids stay unused when one container is set, and tombstones are left for one that goes. -/
theorem IdsUnused.of_sets (unused : IdsUnused user store)
    (sets : Sets kind id written listed left store next)
    (free : written.isSome → store.find kind id = none → store.Free user id)
    (gone : ∀ tombstone ∈ left, tombstone.shelfId = id ∧ written = none ∧
      (store.find kind id).isSome) :
    IdsUnused user next := by
  have alone : ∀ other, written.isSome → (store.find other id).isSome → other = kind := by
    intro other present found
    cases was : store.find kind id with
    | none => simp [(free present was).find other] at found
    | some row => exact unused.disjoint id other kind found (by simp [was])
  refine ⟨fun other => sets.distinct other (unused.distinct other), ?_, ?_⟩
  · intro x one two first second
    rw [sets.find] at first second
    split at first <;> split at second
    · rename_i mine other
      exact mine.1.trans other.1.symm
    · rename_i mine _
      exact mine.1.trans (alone two first (mine.2 ▸ second)).symm
    · rename_i _ mine
      exact (alone one second (mine.2 ▸ first)).trans mine.1.symm
    · exact unused.disjoint x one two first second
  · intro tombstone member mine other
    rw [sets.tombstones] at member
    rw [sets.find]
    rcases mem_append.mp member with old | new
    · have missing := unused.buried tombstone old mine
      split
      · rename_i both
        obtain ⟨rfl, rfl⟩ := both
        by_contra present
        exact (free (Option.isSome_iff_ne_none.mpr present) (missing other)).tombstones
          tombstone old mine rfl
      · exact missing other
    · obtain ⟨named, rfl, found⟩ := gone tombstone new
      split
      · rfl
      rename_i apart
      by_contra present
      refine apart ⟨unused.disjoint _ other kind (Option.isSome_iff_ne_none.mpr present) ?_, named⟩
      rwa [named]

/-- Only the container with the given id of the given kind differs. -/
structure OnlyTouched (kind : ContainerKind) (id : String)
    (store next : ContainerStore) : Prop where
  books : next.books = store.books
  rest : ∀ other x, ¬(other = kind ∧ x = id) → Untouched store next other x

omit [Host] in
theorem Sets.onlyTouched (sets : Sets kind id written listed left store next) :
    OnlyTouched kind id store next where
  books := sets.books
  rest other x apart :=
    { find := by rw [sets.find, if_neg apart]
      members := by rw [sets.members, if_neg apart]
      rules := fun list =>
        joinedRules_congr (sets.rules x fun both => apart ⟨list.trans both.1.symm, both.2⟩) }

omit [Host] in
theorem OnlyTouched.symm (touched : OnlyTouched kind id store next) :
    OnlyTouched kind id next store where
  books := touched.books.symm
  rest other x apart :=
    let untouched := touched.rest other x apart
    ⟨untouched.find.symm, untouched.members.symm, fun list => (untouched.rules list).symm⟩

/-- A shelf stays, unless its container is the one touched. -/
theorem OnlyTouched.forward (touched : OnlyTouched kind id store next)
    (before : IdsUnused user store) (after : IdsUnused user next)
    (member : shelf ∈ store.shelvesForUser user extensions) :
    shelf ∈ next.shelvesForUser user extensions ∨ ∃ row, row.id = id ∧
      store.find kind id = some row ∧ store.Shelved user kind row ∧
        shelf = store.project extensions kind row := by
  obtain ⟨other, row, found, shelved, rfl⟩ := (mem_shelvesForUser before).mp member
  by_cases same : other = kind ∧ row.id = id
  · obtain ⟨rfl, rfl⟩ := same
    exact .inr ⟨row, rfl, found, shelved, rfl⟩
  · have untouched := touched.rest other row.id same
    exact .inl ((mem_shelvesForUser after).mpr ⟨other, row, untouched.find.trans found,
      untouched.shelved.mpr shelved, (untouched.project touched.books extensions).symm⟩)

/-- The row set is stamped, and a shelf it takes the place of is a shelf with it or has
left a tombstone. -/
theorem Sets.wrote (sets : Sets kind id written listed left store next)
    (before : IdsUnused user store) (after : IdsUnused user next)
    (stamped : ∀ row ∈ written, row.updatedAt = now)
    (dated : ∀ tombstone ∈ left, tombstone.deletedAt = now)
    (kept : ∀ old, store.find kind id = some old → store.Shelved user kind old →
      (∃ row ∈ written, row.id = id ∧ next.Shelved user kind row) ∨
        ∃ tombstone ∈ left, tombstone.userId = user.id ∧ tombstone.shelfId = id) :
    Wrote user extensions now store next where
  stamped shelf member := by
    rcases sets.onlyTouched.symm.forward after before member with same | ⟨row, -, found, -, rfl⟩
    · exact .inl same
    · rw [sets.find, if_pos ⟨rfl, rfl⟩] at found
      exact .inr (stamped row found)
  kept shelf member := by
    rcases sets.onlyTouched.forward before after member with same | ⟨old, rfl, found, shelved, rfl⟩
    · exact .inl ⟨shelf, same, rfl⟩
    rcases kept old found shelved with ⟨row, new, named, shelved⟩ | ⟨tombstone, new, mine, named⟩
    · have found : next.find kind row.id = some row := by
        rw [sets.find, if_pos ⟨rfl, named⟩]
        exact new
      exact .inl ⟨_, (mem_shelvesForUser after).mpr ⟨kind, row, found, shelved, rfl⟩, named⟩
    · exact .inr ⟨tombstone, sets.tombstones ▸ mem_append_right _ new, mine, named,
        dated tombstone new⟩
  tombstones _ old := sets.tombstones ▸ mem_append_left _ old
  dated tombstone member :=
    (mem_append.mp (sets.tombstones ▸ member)).imp_right (dated tombstone)

omit [Host] in
/-- A rewritten container is a shelf for whom it was one. -/
theorem Restamped.shelved {old new : Container} (restamped : Restamped now old new)
    (rules : next.rules = store.rules) (shelved : store.Shelved user kind old) :
    next.Shelved user kind new := by
  obtain ⟨flagged, admitted⟩ := shelved
  refine ⟨restamped.koboShelf.trans flagged, ?_⟩
  cases kind with
  | collection => exact restamped.creator.trans admitted
  | readingList =>
    obtain ⟨rule, joined, admits⟩ := admitted
    refine ⟨rule, ?_, ?_⟩
    · have same : next.joinedRules old.id = store.joinedRules old.id :=
        joinedRules_congr (by rw [rules])
      rw [restamped.id, same]
      exact joined
    · simpa only [rbacAdmits, restamped.creator, restamped.visibility] using admits

/-- Every call writes the shelves so, and uses no id twice. -/
theorem wrote_of_edit (unused : IdsUnused user store) (careful : Careful user call store)
    (edit : Edit call now store next) :
    IdsUnused user next ∧ Wrote user extensions now store next := by
  cases edit with
  | unchanged =>
    exact ⟨unused, fun _ member => .inl member, fun shelf member => .inl ⟨shelf, member, rfl⟩,
      fun _ left => left, fun _ left => .inl left⟩
  | created kind row change absent stamped initial asked =>
    have sets := sets_add change absent
    have after := unused.of_sets sets (fun _ => careful.unused kind row.id asked) (by simp)
    refine ⟨after, sets.wrote unused after (by simpa using stamped) (by simp) fun old found => ?_⟩
    cases absent.symm.trans found
  | rewritten kind id f change found restamps asked =>
    have sets : Sets kind id _ _ [] store (store.rewrite kind id f change) :=
      sets_rewrite change fun row => (restamps row).id
    have after := unused.of_sets sets (fun present none => by simp [none] at present) (by simp)
    refine ⟨after, sets.wrote unused after ?_ (by simp) fun old found shelved => .inl ?_⟩
    · rintro row written
      obtain ⟨old, -, rfl⟩ := Option.map_eq_some_iff.mp written
      exact (restamps old).stamp
    · refine ⟨f old, by simp [found], (restamps old).id.trans (store.find_id found), ?_⟩
      exact (restamps old).shelved (by cases kind <;> rfl) shelved
  | deleted kind row tombstones found left asked =>
    have sets : Sets kind row.id none [] tombstones store _ := sets_bury tombstones
    have after := unused.of_sets sets nofun <| by
      rcases left with ⟨tombstoneId, rfl⟩ | ⟨-, rfl⟩ <;> simp [found]
    refine ⟨after, sets.wrote unused after (by simp) ?_ fun old present shelved => .inr ?_⟩
    · rcases left with ⟨tombstoneId, rfl⟩ | ⟨-, rfl⟩ <;> simp
    obtain rfl := Option.mem_unique found present
    have mine : row.creatingUserId = user.id := by
      cases kind with
      | collection => exact shelved.2
      | readingList => exact careful.own row asked found shelved
    rcases left with ⟨tombstoneId, rfl⟩ | ⟨unflagged, -⟩
    · exact ⟨_, mem_singleton_self _, mine, rfl⟩
    · rw [shelved.1] at unflagged
      cases unflagged

end Wrote

end Coppice.Collections
