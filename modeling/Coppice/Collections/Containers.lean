import Coppice.Kobo.Sync

/-!
# Containers

Collections and reading lists, and the mutations every protocol surface shares, as in
`collections/src/service.rs`. The two kinds keep their rows and their members in tables
of the same shape, so each mutation of the service is written once for a kind and named
for both. A mutation that fails leaves the store it was given; the events it would emit
are not modelled.
-/

namespace Coppice.Collections

open Coppice.Std Models

/-- Which canonical table backs a shelf id. -/
inductive ContainerKind where
  | collection
  | readingList
deriving DecidableEq, Repr

namespace ContainerKind

def title : ContainerKind → String
  | collection => "Collection"
  | readingList => "Reading list"

def noun : ContainerKind → String
  | collection => "collection"
  | readingList => "reading list"

def memberNoun : ContainerKind → String
  | collection => "series"
  | readingList => "books"

def idsLabel : ContainerKind → String
  | collection => "seriesIds"
  | readingList => "bookIds"

end ContainerKind

inductive CoreError where
  | badRequest (message : String)
  | notFound (message : String)
  | forbidden (message : String)
  | dbError
deriving DecidableEq, Repr

inductive EntityVisibility where
  | isPublic
  | isShared
  | isPrivate
deriving DecidableEq, Repr

/-- A row of `collections` or `reading_lists`. `ordered` is a reading list's `ordering`
being `MANUAL` and not `CREATED_AT`; a collection has no `visibility`, and is private. -/
structure Container where
  id : String
  name : String
  description : Option String
  updatedAt : Int
  ordered : Bool
  visibility : EntityVisibility
  koboShelf : Bool
  sourceDevice : Option String
  creatingUserId : String
deriving DecidableEq, Repr

/-- What `touch_collection` and `touch_reading_list` write. -/
def Container.touched (now : Int) (name device : Option String) (row : Container) : Container :=
  { row with name := name.getD row.name, sourceDevice := device, updatedAt := now }

/-- A row of `collection_series` or `reading_list_items`. -/
structure Member where
  displayOrder : Int
  memberId : String
  containerId : String
deriving DecidableEq, Repr

structure ReadingListRule where
  role : Int
  userId : String
  readingListId : String
deriving DecidableEq, Repr

structure ShelfTombstone where
  id : String
  userId : String
  shelfId : String
  deletedAt : Int
deriving DecidableEq, Repr

/-- A row of `media` with what containers read of it. -/
structure Book extends Kobo.Media where
  name : String
  seriesId : Option String
deriving DecidableEq, Repr

structure Series where
  id : String
  libraryId : String
  ageRating : Option Int
  deletedAt : Option Int
deriving DecidableEq, Repr

/-- The user behind a mutation. -/
structure Actor extends Kobo.AuthUser where
  id : String
  isServerOwner : Bool
deriving DecidableEq, Repr

/-- The containers of a kind and their members. -/
structure ContainerTable where
  rows : List Container
  members : List Member
deriving DecidableEq, Repr

structure ContainerStore where
  collections : ContainerTable
  readingLists : ContainerTable
  rules : List ReadingListRule
  tombstones : List ShelfTombstone
  books : List Book
  series : List Series
deriving DecidableEq, Repr

/-- `series::get_age_restriction_filter`, if the user has a restriction. -/
def Actor.admitsSeries (user : Actor) (series : Series) : Bool :=
  match user.ageRestriction, series.ageRating with
  | none, _ => true
  | some restriction, some rating => rating ≤ restriction.age
  | some restriction, none => !restriction.restrictOnUnset

/-- `series::Entity::find_for_user`, on one row. -/
def Actor.seesSeries (user : Actor) (series : Series) : Bool :=
  series.deletedAt.isNone && user.seesLibrary series.libraryId && user.admitsSeries series

/-- `media::Entity::find_for_user`, on one row: a book without a series is not joined. -/
def Actor.seesBook (user : Actor) (book : Book) : Bool :=
  book.seriesId.isSome && user.sees book.toMedia

def validateName (name : String) : Except CoreError String :=
  if trim name = "" then .error (.badRequest "Name must not be blank") else .ok (trim name)

def rejectDuplicates (ids : List String) (label : String) : Except CoreError Unit :=
  if ids.Nodup then .ok () else .error (.badRequest (label ++ " must not contain duplicate ids"))

/-- `Uuid::parse_str(..).is_ok()`: 32 hexadecimal digits, plain or in the five hyphenated
groups, which may stand in braces or behind `urn:uuid:`. -/
def isHexDigit (c : Char) : Bool :=
  ('0' ≤ c && c ≤ '9') || ('a' ≤ c && c ≤ 'f') || ('A' ≤ c && c ≤ 'F')

def hyphenated (text : List Char) : Bool :=
  (splitChars '-' text).map List.length == [8, 4, 4, 4, 12] &&
    (splitChars '-' text).all (·.all isHexDigit)

def isUuid (text : String) : Bool :=
  let chars := text.toList
  (chars.length == 32 && chars.all isHexDigit) || hyphenated chars ||
    (startsWith "\x7b" text && endsWith "\x7d" text && hyphenated chars.tail.dropLast) ||
    (startsWith "urn:uuid:" text && hyphenated (chars.drop 9))

/-- The rows for members in the order given, numbered from `start`. -/
def numbered (containerId : String) (start : Nat) (ids : List String) : List Member :=
  (ids.zipIdx start).map fun (id, order) => ⟨order, id, containerId⟩

namespace ContainerTable

/-- `replace_collection_members`, `replace_reading_list_members`. -/
def replaceMembers (table : ContainerTable) (containerId : String) (ids : List String) :
    ContainerTable :=
  { table with
    members := (table.members.filter fun member => member.containerId ≠ containerId) ++
      numbered containerId 0 ids }

/-- Add members that are not there yet, numbered from `start`. -/
def addMembers (table : ContainerTable) (containerId : String) (start : Nat) (ids : List String) :
    ContainerTable :=
  { table with members := table.members ++ numbered containerId start ids }

def removeMembers (table : ContainerTable) (containerId : String) (ids : List String) :
    ContainerTable :=
  { table with
    members := table.members.filter fun member =>
      ¬(member.containerId = containerId ∧ member.memberId ∈ ids) }

/-- Delete a container; its members go with it. -/
def deleteById (table : ContainerTable) (containerId : String) : ContainerTable :=
  { rows := table.rows.filter fun row => row.id ≠ containerId
    members := table.members.filter fun member => member.containerId ≠ containerId }

end ContainerTable

namespace ContainerStore

def table (store : ContainerStore) : ContainerKind → ContainerTable
  | .collection => store.collections
  | .readingList => store.readingLists

def modify (store : ContainerStore) (kind : ContainerKind) (f : ContainerTable → ContainerTable) :
    ContainerStore :=
  match kind with
  | .collection => { store with collections := f store.collections }
  | .readingList => { store with readingLists := f store.readingLists }

def find (store : ContainerStore) (kind : ContainerKind) (id : String) : Option Container :=
  lookup Container.id (store.table kind).rows id

/-- Insert a row, whose id is the primary key. -/
def insert (store : ContainerStore) (kind : ContainerKind) (row : Container) :
    Except CoreError ContainerStore :=
  match store.find kind row.id with
  | some _ => .error .dbError
  | none => .ok (store.modify kind fun table => { table with rows := table.rows ++ [row] })

/-- Delete a container; the rules of a reading list go with it. -/
def delete (store : ContainerStore) (kind : ContainerKind) (id : String) : ContainerStore :=
  let store := store.modify kind (·.deleteById id)
  match kind with
  | .collection => store
  | .readingList => { store with rules := store.rules.filter fun rule => rule.readingListId ≠ id }

def recordShelfTombstone (store : ContainerStore) (now : Int)
    (tombstoneId userId shelfId : String) :
    ContainerStore :=
  { store with tombstones := store.tombstones ++ [⟨tombstoneId, userId, shelfId, now⟩] }

section Queries

variable [Host]

/-- The ids among `ids` of members the actor sees. -/
def visibleMembers (store : ContainerStore) (user : Actor) (ids : List String) :
    ContainerKind → List String
  | .collection => (Host.scan (store.series.filter fun series =>
    user.seesSeries series ∧ series.id ∈ ids)).map Series.id
  | .readingList => (Host.scan (store.books.filter fun book =>
    user.seesBook book ∧ book.id ∈ ids ∧ book.deletedAt = none)).map fun book => book.id

/-- `ensure_series_visible`, `ensure_books_visible`. -/
def ensureVisible (store : ContainerStore) (user : Actor) (kind : ContainerKind)
    (ids : List String) : Except CoreError Unit :=
  if ids = [] ∨ (store.visibleMembers user ids kind).length = ids.length then .ok ()
  else .error (.notFound ("One or more " ++ kind.memberNoun ++ " were not found"))

/-- Current member ids of a container, in display order. -/
def containerMemberIds (store : ContainerStore) (kind : ContainerKind) (id : String) :
    List String :=
  (orderBy Member.displayOrder (Host.scan ((store.table kind).members.filter fun member =>
    member.containerId = id))).map Member.memberId

/-- The series a set of books belongs to, without duplicates or books without a series. -/
def seriesOfBooks (store : ContainerStore) (bookIds : List String) : List String :=
  distinctBy (fun id => id) ((Host.scan (store.books.filter fun book =>
    book.id ∈ bookIds ∧ book.seriesId.isSome)).filterMap Book.seriesId)

end Queries

/-- `ContainerKind::resolve`: the kind of the container with a shelf id. -/
def resolveShelf (store : ContainerStore) (shelfId : String) : Except CoreError ContainerKind :=
  if (store.find .collection shelfId).isSome then .ok .collection
  else if (store.find .readingList shelfId).isSome then .ok .readingList
  else .error (.notFound ("No shelf with id " ++ shelfId))

def shelfOwnerId (store : ContainerStore) (kind : ContainerKind) (shelfId : String) :
    Except CoreError String :=
  match store.find kind shelfId with
  | some row => .ok row.creatingUserId
  | none => .error (.notFound ("Shelf " ++ shelfId ++ " not found"))

/-- `touch_collection`, `touch_reading_list`: stamp a container, and rename it if asked. -/
def touch (store : ContainerStore) (kind : ContainerKind) (now : Int) (id : String)
    (name device : Option String) : Except CoreError ContainerStore :=
  match store.find kind id with
  | none => .error (.notFound (kind.title ++ " " ++ id ++ " not found"))
  | some _ => .ok (store.modify kind fun table =>
    { table with rows := updateAt Container.id id (Container.touched now name device) table.rows })

end ContainerStore

/-- Native write rule: the creating user only. -/
def assertOwner (user : Actor) (kind : ContainerKind) (row : Container) (verb : String) :
    Except CoreError Unit :=
  if row.creatingUserId ≠ user.id then
    .error (.forbidden ("Only the " ++ kind.noun ++ " owner may " ++ verb ++ " it"))
  else .ok ()

/-- Device write rule: the creating user, or the server owner. -/
def assertShelfOwner (user : Actor) (creatingUserId : String) : Except CoreError Unit :=
  if creatingUserId ≠ user.id ∧ user.isServerOwner = false then
    .error (.forbidden "Only the shelf owner may write to it")
  else .ok ()

structure CollectionCreate where
  name : String
  ordered : Bool
  seriesIds : List String
deriving DecidableEq, Repr

structure CollectionUpdate where
  name : Option String
  ordered : Option Bool
  seriesIds : Option (List String)
deriving DecidableEq, Repr

structure ReadListCreate where
  name : String
  summary : Option String
  ordered : Bool
  bookIds : List String
deriving DecidableEq, Repr

structure ReadListUpdate where
  name : Option String
  summary : Option (Option String)
  ordered : Option Bool
  bookIds : Option (List String)
deriving DecidableEq, Repr

/-- `ReadingListInput` of the GraphQL surface. -/
structure ReadingListInput where
  id : String
  name : String
  visibility : Option EntityVisibility
  mediaIds : List String
deriving DecidableEq, Repr

/-- What an update asks for, of either kind. -/
structure ContainerUpdate where
  name : Option String
  summary : Option (Option String)
  ordered : Option Bool
  memberIds : Option (List String)
deriving DecidableEq, Repr

/-- The row an update writes; a native name write clears the device provenance. -/
def ContainerUpdate.applyTo (input : ContainerUpdate) (now : Int) (name : Option String)
    (row : Container) : Container :=
  { row with
    name := name.getD row.name
    sourceDevice := if name.isSome then none else row.sourceDevice
    description := input.summary.getD row.description
    ordered := input.ordered.getD row.ordered
    updatedAt := now }

namespace ContainerStore

variable [Host] (store : ContainerStore)

section Owner

variable (user : Actor) (now : Int)

/-- Create a container with validated visible members. -/
def createContainer (kind : ContainerKind) (uuid name : String) (summary : Option String)
    (ordered : Bool) (memberIds : List String) : Except CoreError (ContainerStore × Container) := do
  let name ← validateName name
  rejectDuplicates memberIds kind.idsLabel
  store.ensureVisible user kind memberIds
  let model : Container :=
    { id := uuid, name := name, description := summary, updatedAt := now, ordered := ordered
      visibility := .isPrivate, koboShelf := true, sourceDevice := none
      creatingUserId := user.id }
  let store ← store.insert kind model
  return (store.modify kind (·.replaceMembers model.id memberIds), model)

def createCollection (uuid : String) (input : CollectionCreate) :
    Except CoreError (ContainerStore × Container) :=
  store.createContainer user now .collection uuid input.name none input.ordered input.seriesIds

def createReadList (uuid : String) (input : ReadListCreate) :
    Except CoreError (ContainerStore × Container) :=
  store.createContainer user now .readingList uuid input.name input.summary input.ordered
    input.bookIds

/-- The new members are checked before the row is written. -/
def checkMembers (kind : ContainerKind) : Option (List String) → Except CoreError Unit
  | none => .ok ()
  | some ids => do
      rejectDuplicates ids kind.idsLabel
      store.ensureVisible user kind ids

/-- Update name, summary, ordering and membership of a container of the actor. -/
def updateContainer (kind : ContainerKind) (id : String) (input : ContainerUpdate) :
    Except CoreError (ContainerStore × List String) := do
  let model ← (store.find kind id).elim
    (.error (.notFound (kind.title ++ " " ++ id ++ " not found"))) .ok
  assertOwner user kind model "update"
  store.checkMembers user kind input.memberIds
  let name ← input.name.elim (.ok none) fun name => some <$> validateName name
  let store := store.modify kind fun table =>
    { table with rows := updateAt Container.id id (input.applyTo now name) table.rows }
  let store := match input.memberIds with
    | none => store
    | some ids => store.modify kind (·.replaceMembers id ids)
  return (store, store.containerMemberIds kind id)

def updateCollection (id : String) (input : CollectionUpdate) :
    Except CoreError (ContainerStore × List String) :=
  store.updateContainer user now .collection id ⟨input.name, none, input.ordered, input.seriesIds⟩

def updateReadList (id : String) (input : ReadListUpdate) :
    Except CoreError (ContainerStore × List String) :=
  store.updateContainer user now .readingList id
    ⟨input.name, input.summary, input.ordered, input.bookIds⟩

/-- Delete a container of the actor, with a tombstone when it was projected to Kobo. -/
def deleteContainer (kind : ContainerKind) (tombstoneId id : String) :
    Except CoreError (ContainerStore × List String) := do
  let model ← (store.find kind id).elim
    (.error (.notFound (kind.title ++ " " ++ id ++ " not found"))) .ok
  assertOwner user kind model "delete"
  let memberIds := store.containerMemberIds kind id
  let store :=
    if model.koboShelf then store.recordShelfTombstone now tombstoneId model.creatingUserId id
    else store
  return (store.delete kind id, memberIds)

def deleteCollection (tombstoneId id : String) : Except CoreError (ContainerStore × List String) :=
  store.deleteContainer user now .collection tombstoneId id

def deleteReadList (tombstoneId id : String) : Except CoreError (ContainerStore × List String) :=
  store.deleteContainer user now .readingList tombstoneId id

/-- The foreign key of `reading_list_items` to `media`. -/
def ensureMedia (mediaIds : List String) : Except CoreError Unit :=
  if ∀ id ∈ mediaIds, ∃ book ∈ store.books, book.id = id then .ok () else .error .dbError

/-- `create_reading_list` of the GraphQL surface: the id is the client's, the name and the
members are taken as they are. -/
def createReadingList (input : ReadingListInput) :
    Except CoreError (ContainerStore × Container) := do
  let model : Container :=
    { id := input.id, name := input.name, description := none, updatedAt := now, ordered := true
      visibility := input.visibility.getD .isPrivate, koboShelf := true, sourceDevice := none
      creatingUserId := user.id }
  let store ← store.insert .readingList model
  store.ensureMedia input.mediaIds
  return (store.modify .readingList (·.addMembers model.id 0 input.mediaIds), model)

end Owner

section Device

variable (user : Actor) (now : Int)

/-- A device-created shelf becomes a collection; one with the same id or name is reused. -/
def createDeviceShelf (uuid : String) (shelfId : Option String) (name : String)
    (device : Option String) : Except CoreError (ContainerStore × Container) := do
  let name ← validateName name
  let shelfId := match shelfId with
    | some id => if isUuid id then id else uuid
    | none => uuid
  match store.find .collection shelfId with
  | some existing =>
    if existing.creatingUserId = user.id then .ok (store, existing)
    else .error (.forbidden "A shelf with this id already exists")
  | none =>
    let named := Host.scan (store.collections.rows.filter fun row =>
      row.creatingUserId = user.id ∧ row.koboShelf ∧ row.name = name)
    match named.head? with
    | some existing => .ok (store, existing)
    | none =>
      let model : Container :=
        { id := shelfId, name := name, description := none, updatedAt := now, ordered := false
          visibility := .isPrivate, koboShelf := true, sourceDevice := device
          creatingUserId := user.id }
      let store ← store.insert .collection model
      return (store, model)

/-- The container behind a shelf the actor may write to. -/
def writableShelf (shelfId : String) : Except CoreError (ContainerKind × String) := do
  let kind ← store.resolveShelf shelfId
  let owner ← store.shelfOwnerId kind shelfId
  assertShelfOwner user owner
  return (kind, owner)

def renameShelf (shelfId name : String) (device : Option String) :
    Except CoreError ContainerStore := do
  let name ← validateName name
  let (kind, _) ← store.writableShelf user shelfId
  store.touch kind now shelfId (some name) device

/-- The members books stand for on a shelf of the kind. -/
def shelfMembers (kind : ContainerKind) (bookIds : List String) :
    Except CoreError (List String) :=
  match kind with
  | .collection =>
    let seriesIds := store.seriesOfBooks bookIds
    if seriesIds.length ≠ bookIds.length then
      .error (.badRequest "Every book on a collection shelf must belong to a series")
    else .ok seriesIds
  | .readingList => .ok bookIds

/-- The unique index of `collection_series` on the order; `reading_list_items` has none. -/
def ensureOrders (kind : ContainerKind) (shelfId : String) (order count : Nat) :
    Except CoreError Unit :=
  if kind = .collection ∧ ∃ member ∈ (store.table kind).members, member.containerId = shelfId ∧
      (order : Int) ≤ member.displayOrder ∧ member.displayOrder < order + count then .error .dbError
  else .ok ()

/-- Add books to a shelf; members already there are skipped. -/
def addShelfItems (shelfId : String) (bookIds : List String) (device : Option String) :
    Except CoreError ContainerStore := do
  rejectDuplicates bookIds "bookIds"
  store.ensureVisible user .readingList bookIds
  let (kind, _) ← store.writableShelf user shelfId
  let existing := store.containerMemberIds kind shelfId
  let members ← store.shelfMembers kind bookIds
  -- the next order is the number of members, whatever their orders are
  let order := (distinctBy (fun id => id) existing).length
  let added := members.filter fun id => id ∉ existing
  store.ensureOrders kind shelfId order added.length
  let store := store.modify kind (·.addMembers shelfId order added)
  store.touch kind now shelfId none device

/-- Remove books from a shelf; a collection loses their whole series. -/
def removeShelfItems (shelfId : String) (bookIds : List String) (device : Option String) :
    Except CoreError ContainerStore := do
  let (kind, _) ← store.writableShelf user shelfId
  let members := match kind with
    | .collection => store.seriesOfBooks bookIds
    | .readingList => bookIds
  let store := store.modify kind (·.removeMembers shelfId members)
  store.touch kind now shelfId none device

/-- Delete a shelf; the tombstone is its creating user's. -/
def deleteShelf (tombstoneId shelfId : String) :
    Except CoreError (ContainerStore × ContainerKind × List String) := do
  let kind ← store.resolveShelf shelfId
  let memberIds := store.containerMemberIds kind shelfId
  let owner ← store.shelfOwnerId kind shelfId
  assertShelfOwner user owner
  let store := (store.recordShelfTombstone now tombstoneId owner shelfId).delete kind shelfId
  return (store, kind, memberIds)

end Device

end ContainerStore
end Coppice.Collections
