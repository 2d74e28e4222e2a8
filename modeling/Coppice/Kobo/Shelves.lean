import Coppice.Collections.Shelf
import Coppice.Std.System

/-!
# Shelves on the device

The last page of a session carries the shelves: all of them on a full sync, later those
stamped in the window and the ids of the tombstones in it. A device that applies the tags
in the order they come has, after the last page, exactly the shelves of the user, as long
as no id is used a second time and no other user deletes a list this user sees: a shelf
that differs was stamped in the window, and one that is gone left a tombstone in it.
-/

namespace Coppice.Kobo

open Coppice.Std Models Coppice.Collections List

structure KoboTagItem where
  revisionId : String
  type : String
deriving DecidableEq, Repr

/-- A shelf on the wire; its time is kept as the instant that `kobo_timestamp` prints. -/
structure KoboTag where
  id : String
  name : String
  lastModified : Int
  tagType : String
  type : String
  items : List KoboTagItem
deriving DecidableEq, Repr

/-- What a page tells the device about shelves. -/
inductive TagItem where
  | newTag (tag : KoboTag)
  | changedTag (tag : KoboTag)
  | deletedTag (id : String) (lastModified : Int)
deriving DecidableEq, Repr

def koboTagContainer (shelf : ShelfProjection) : KoboTag :=
  { id := shelf.shelfId
    name := shelf.name
    lastModified := shelf.lastModified
    tagType := "Manual"
    type := "UserTag"
    items := shelf.items.map fun revisionId => ⟨revisionId, "ProductRevisionTagItem"⟩ }

/-- The shelf items of a page, of which only the last of a session has any. -/
def appendShelfItems [Host] (store : ContainerStore) (user : Actor) (extensions : List String)
    (now : Int) (page : SyncPage) : ContainerStore × List TagItem :=
  if page.shouldContinue then (store, [])
  else
    let (store, delta) := store.shelfSyncDelta user now page.previousSyncAt extensions
    (store, delta.new.map (fun shelf => .newTag (koboTagContainer shelf)) ++
      delta.changed.map (fun shelf => .changedTag (koboTagContainer shelf)) ++
      delta.deletedIds.map fun id => .deletedTag id now)

/-- A shelf as the device shows it. -/
structure DeviceShelf where
  id : String
  name : String
  items : List String
deriving DecidableEq, Repr

def KoboTag.shelf (tag : KoboTag) : DeviceShelf :=
  ⟨tag.id, tag.name, tag.items.map KoboTagItem.revisionId⟩

def deviceShelf (shelf : ShelfProjection) : DeviceShelf := ⟨shelf.shelfId, shelf.name, shelf.items⟩

/-- A new or changed tag replaces the shelf with its id, a deleted one removes it. -/
def applyTag (shelves : List DeviceShelf) : TagItem → List DeviceShelf
  | .newTag tag => upsert DeviceShelf.id shelves tag.shelf
  | .changedTag tag => upsert DeviceShelf.id shelves tag.shelf
  | .deletedTag id _ => shelves.filter fun shelf => shelf.id ≠ id

section Tags

variable {shelves : List DeviceShelf} {shelf : DeviceShelf}

@[simp] theorem shelf_koboTagContainer (projection : ShelfProjection) :
    (koboTagContainer projection).shelf = deviceShelf projection := by
  simp [koboTagContainer, KoboTag.shelf, deviceShelf, Function.comp_def]

/-- New and changed tags are both put. -/
theorem foldl_putTags (projections : List ShelfProjection) {put : KoboTag → TagItem}
    (puts : ∀ shelves tag, applyTag shelves (put tag) = upsert DeviceShelf.id shelves tag.shelf) :
    (projections.map fun projection => put (koboTagContainer projection)).foldl applyTag shelves =
      (projections.map deviceShelf).foldl (upsert DeviceShelf.id) shelves := by
  rw [foldl_map, foldl_map]
  simp only [puts, shelf_koboTagContainer]

theorem mem_foldl_deletedTags {ids : List String} {now : Int} :
    shelf ∈ (ids.map fun id => TagItem.deletedTag id now).foldl applyTag shelves ↔
      shelf ∈ shelves ∧ shelf.id ∉ ids := by
  induction ids generalizing shelves with
  | nil => simp
  | cons id ids ih =>
    rw [map_cons, foldl_cons, ih]
    simp [applyTag, and_assoc]

/-- A batch of tags with distinct ids: its own shelves, and those it does not name. -/
theorem mem_foldl_upsert_unique {batch : List DeviceShelf}
    (unique : ∀ one ∈ batch, ∀ other ∈ batch, one.id = other.id → one = other) :
    shelf ∈ batch.foldl (upsert DeviceShelf.id) shelves ↔
      shelf ∈ batch ∨ shelf ∈ shelves ∧ ∀ new ∈ batch, shelf.id ≠ new.id := by
  constructor
  · exact mem_foldl_upsert
  rintro (new | ⟨old, apart⟩)
  · obtain ⟨row, kept, same, mine⟩ := foldl_upsert_names DeviceShelf.id shelves new
    rwa [unique row mine shelf new same] at kept
  · exact foldl_upsert_keeps old apart

end Tags

/-- The server, and one device of the user; with the time of the last write. -/
structure ShelfWorld where
  kobo : KoboStore
  store : ContainerStore
  token : Option SyncToken
  shelves : List DeviceShelf
  clock : Int
  writtenAt : Int
deriving DecidableEq, Repr

section System

variable [Host] (guard : Call → ContainerStore → Prop) (user : Actor)
  (extensions : List String)

/-- The page a request gets, and the sessions after it. -/
def ShelfWorld.page (world : ShelfWorld) (deviceId : Option String) (now : Int) (id : String)
    (limit : Nat) : KoboStore × SyncPage :=
  world.kobo.nextPage user.toAuthUser deviceId extensions now id world.token limit

/-- The shelf items that come with the page, and the containers after it. -/
def ShelfWorld.tags (world : ShelfWorld) (deviceId : Option String) (now : Int) (id : String)
    (limit : Nat) : ContainerStore × List TagItem :=
  appendShelfItems world.store user extensions now
    (world.page user extensions deviceId now id limit).2

/-- A call of the service, by anyone; a request of the device, whose answer arrives or is
lost; or a sync of another device, which prunes. The window of a session that ends lies
inside the lifetime of the tombstones. -/
inductive ShelfStep : ShelfWorld → ShelfWorld → Prop where
  | write {world : ShelfWorld} {now : Int} {next : ContainerStore} (call : Call)
      (later : world.clock ≤ now) (accepted : call.run world.store now = .ok next)
      (guarded : guard call world.store) :
      ShelfStep world
        { world with
          store := next
          clock := now
          writtenAt := if next = world.store then world.writtenAt else now }
  | sync {world : ShelfWorld} {now : Int} (deviceId : Option String) (id : String) (limit : Nat)
      (later : world.clock ≤ now)
      (fresh : ∀ session ∈ world.kobo.sessions, session.id ≠ id)
      (inside : (world.page user extensions deviceId now id limit).2.shouldContinue = false →
        ∀ since ∈ (world.page user extensions deviceId now id limit).2.previousSyncAt,
          now ≤ since + koboShelfTombstoneTtl) :
      ShelfStep world
        { world with
          kobo := (world.page user extensions deviceId now id limit).1
          store := (world.tags user extensions deviceId now id limit).1
          token := some (world.page user extensions deviceId now id limit).2.syncToken
          shelves :=
            (world.tags user extensions deviceId now id limit).2.foldl applyTag world.shelves
          clock := now }
  | lose {world : ShelfWorld} {now : Int} (deviceId : Option String) (id : String) (limit : Nat)
      (later : world.clock ≤ now)
      (fresh : ∀ session ∈ world.kobo.sessions, session.id ≠ id) :
      ShelfStep world
        { world with
          kobo := (world.page user extensions deviceId now id limit).1
          store := (world.tags user extensions deviceId now id limit).1
          clock := now }
  | prune {world : ShelfWorld} {now : Int} (later : world.clock ≤ now) :
      ShelfStep world { world with store := world.store.pruneTombstones now, clock := now }

/-- A device that never synced, and containers under ids of their own. -/
structure ShelfWorld.Fresh (world : ShelfWorld) : Prop where
  untouched : world.token = none
  empty : world.shelves = []
  unused : IdsUnused user world.store
  modified : ∀ shelf ∈ world.store.shelvesForUser user extensions,
    shelf.lastModified ≤ world.writtenAt
  dated : ∀ tombstone ∈ world.store.tombstones, tombstone.deletedAt ≤ world.writtenAt
  past : world.writtenAt ≤ world.clock

/-- Containers written by everyone and synced to one device. -/
def shelfSystem : System ShelfWorld where
  Initial := ShelfWorld.Fresh user extensions
  Step := ShelfStep guard user extensions

end System

section Invariant

variable [Host] (user : Actor) (extensions : List String) {world next : ShelfWorld} {now : Int}
  {session : SyncSession}

/-- What the device does not have right shows in the window from `since` on, unless it
was long enough ago that a tombstone may be gone. -/
structure Current (world : ShelfWorld) (since : Int) : Prop where
  missing : ∀ shelf ∈ world.store.shelvesForUser user extensions,
    deviceShelf shelf ∈ world.shelves ∨ since ≤ shelf.lastModified
  extra : ∀ shelf ∈ world.shelves,
    (∃ live ∈ world.store.shelvesForUser user extensions, live.shelfId = shelf.id) ∨
      (∃ tombstone ∈ world.store.tombstones, tombstone.userId = user.id ∧
        tombstone.shelfId = shelf.id ∧ since ≤ tombstone.deletedAt) ∨
      since ≤ world.writtenAt ∧ since + koboShelfTombstoneTtl < world.clock

/-- The device waits for the last page of the session. -/
structure Awaiting (world : ShelfWorld) (session : SyncSession) : Prop where
  full : session.previousSyncAt = none → world.shelves = []
  window : ∀ since ∈ session.previousSyncAt, since ≤ world.clock ∧
    Current user extensions world since

/-- What a token says about the shelves of the device. -/
def ShelvesReached (world : ShelfWorld) (session : SyncSession) : SyncToken → Prop
  | .incompleteV1 _ _ => Awaiting user extensions world session
  | .completedV1 _ => Current user extensions world session.createdAt

structure ShelvesFollowed (world : ShelfWorld) : Prop where
  unused : IdsUnused user world.store
  unique : ∀ one ∈ world.shelves, ∀ other ∈ world.shelves, one.id = other.id → one = other
  modified : ∀ shelf ∈ world.store.shelvesForUser user extensions,
    shelf.lastModified ≤ world.writtenAt
  dated : ∀ tombstone ∈ world.store.tombstones, tombstone.deletedAt ≤ world.writtenAt
  past : world.writtenAt ≤ world.clock
  untouched : world.token = none → world.shelves = []
  token : ∀ token ∈ world.token, ∃ session, world.kobo.find token.syncId = some session ∧
    session.createdAt ≤ world.clock ∧ ShelvesReached user extensions world session token

variable {user extensions}

/-- From one world to a later one, what is current stays current. -/
structure StaysCurrent (user : Actor) (extensions : List String)
    (world next : ShelfWorld) : Prop where
  current : ∀ since, since ≤ world.clock → Current user extensions world since →
    Current user extensions next since
  shelves : next.shelves = world.shelves
  later : world.clock ≤ next.clock

variable (stays : StaysCurrent user extensions world next) {store : ContainerStore}
  {page : SyncPage}
include stays

theorem StaysCurrent.awaiting (awaiting : Awaiting user extensions world session) :
    Awaiting user extensions next session := by
  refine ⟨fun none => stays.shelves.trans (awaiting.full none), fun since window => ?_⟩
  obtain ⟨before, current⟩ := awaiting.window since window
  exact ⟨before.trans stays.later, stays.current since before current⟩

theorem StaysCurrent.reached {token : SyncToken} (old : session.createdAt ≤ world.clock)
    (reached : ShelvesReached user extensions world session token) :
    ShelvesReached user extensions next session token := by
  cases token with
  | completedV1 syncId => exact stays.current _ old reached
  | incompleteV1 syncId offset => exact stays.awaiting reached

/-- A step that leaves the device and its session alone. -/
theorem StaysCurrent.token (followed : ShelvesFollowed user extensions world)
    (kept : ∀ token ∈ world.token, ∀ session, world.kobo.find token.syncId = some session →
      next.kobo.find token.syncId = some session) :
    ∀ token ∈ world.token, ∃ session, next.kobo.find token.syncId = some session ∧
      session.createdAt ≤ next.clock ∧ ShelvesReached user extensions next session token := by
  intro token held
  obtain ⟨session, found, old, reached⟩ := followed.token token held
  exact ⟨session, kept token held session found, old.trans stays.later, stays.reached old reached⟩

omit stays

section Write

variable {store : ContainerStore}

theorem staysCurrent_of_wrote {writtenAt : Int}
    (wrote : Wrote user extensions now world.store store) (later : world.clock ≤ now)
    (after : world.writtenAt ≤ writtenAt) :
    StaysCurrent user extensions world
      { world with store, clock := now, writtenAt } where
  shelves := rfl
  later := later
  current since before current := by
    refine ⟨fun shelf member => ?_, fun shelf shown => ?_⟩
    · rcases wrote.stamped shelf member with old | new
      · exact current.missing shelf old
      · exact .inr (new ▸ before.trans later)
    rcases current.extra shelf shown with ⟨live, member, named⟩ | ⟨tombstone, left, mine⟩ | gone
    · rcases wrote.kept live member with ⟨still, kept, same⟩ | ⟨tombstone, left, mine, same, date⟩
      · exact .inl ⟨still, kept, same.trans named⟩
      · exact .inr (.inl ⟨tombstone, left, mine, same.trans named, date ▸ before.trans later⟩)
    · exact .inr (.inl ⟨tombstone, wrote.tombstones tombstone left, mine⟩)
    · exact .inr (.inr ⟨gone.1.trans after, lt_of_lt_of_le gone.2 later⟩)

theorem ShelvesFollowed.write {call : Call}
    (followed : ShelvesFollowed user extensions world) (later : world.clock ≤ now)
    (accepted : call.run world.store now = .ok store) (careful : Careful user call world.store) :
    ShelvesFollowed user extensions
      { world with
        store
        clock := now
        writtenAt := if store = world.store then world.writtenAt else now } := by
  obtain ⟨unused, wrote⟩ : IdsUnused user store ∧ Wrote user extensions now world.store store :=
    wrote_of_edit followed.unused careful (Call.edit accepted)
  have past := followed.past
  set writtenAt := if store = world.store then world.writtenAt else now with stamp
  have bounds : world.writtenAt ≤ writtenAt ∧ writtenAt ≤ now := by
    rw [stamp]
    split <;> omega
  have stays := staysCurrent_of_wrote wrote later bounds.1
  have fresh : ∀ time, time ≤ world.writtenAt ∨ time = now ∧ store ≠ world.store →
      time ≤ writtenAt := by
    rintro time (old | ⟨rfl, changed⟩)
    · exact old.trans bounds.1
    · rw [stamp, if_neg changed]
  refine ⟨unused, followed.unique, fun shelf member => fresh _ ?_, fun tombstone left => fresh _ ?_,
    bounds.2, followed.untouched, stays.token followed fun _ _ _ found => found⟩
  · by_cases same : store = world.store
    · exact .inl (followed.modified shelf (same ▸ member))
    · exact (wrote.stamped shelf member).imp (followed.modified shelf) fun new => ⟨new, same⟩
  · by_cases same : store = world.store
    · exact .inl (followed.dated tombstone (same ▸ left))
    · exact (wrote.dated tombstone left).imp (followed.dated tombstone) fun new => ⟨new, same⟩

end Write

section Prune

variable {kobo : KoboStore}

omit [Host] in
theorem mem_pruneTombstones {tombstone : ShelfTombstone} :
    tombstone ∈ (store.pruneTombstones now).tombstones ↔
      tombstone ∈ store.tombstones ∧ now - koboShelfTombstoneTtl ≤ tombstone.deletedAt := by
  simp [ContainerStore.pruneTombstones]

omit [Host] in
theorem IdsUnused.prune (unused : IdsUnused user store) :
    IdsUnused user (store.pruneTombstones now) :=
  ⟨unused.distinct, unused.disjoint, fun tombstone left =>
    unused.buried tombstone (mem_pruneTombstones.mp left).1⟩

theorem staysTicked (world : ShelfWorld) {next : ShelfWorld} (store : next.store = world.store)
    (shelves : next.shelves = world.shelves) (written : next.writtenAt = world.writtenAt)
    (later : world.clock ≤ next.clock) :
    StaysCurrent user extensions world next where
  shelves := shelves
  later := later
  current since before current := by
    refine ⟨fun shelf member => ?_, fun shelf shown => ?_⟩
    · rw [store] at member
      rw [shelves]
      exact current.missing shelf member
    rw [shelves] at shown
    rw [store, written]
    exact (current.extra shelf shown).imp_right
      (Or.imp_right fun gone => ⟨gone.1, lt_of_lt_of_le gone.2 later⟩)

variable (followed : ShelvesFollowed user extensions world) (later : world.clock ≤ now)
include followed later

theorem ShelvesFollowed.staysPruned (kobo : KoboStore) :
    StaysCurrent user extensions world
      { world with kobo, store := world.store.pruneTombstones now, clock := now } where
  shelves := rfl
  later := later
  current since before current := by
    refine ⟨current.missing, fun shelf shown => ?_⟩
    rcases current.extra shelf shown with live | ⟨tombstone, left, mine, same, inside⟩ | gone
    · exact .inl live
    · by_cases kept : now - koboShelfTombstoneTtl ≤ tombstone.deletedAt
      · exact .inr (.inl ⟨tombstone, mem_pruneTombstones.mpr ⟨left, kept⟩, mine, same, inside⟩)
      · have date := followed.dated tombstone left
        exact .inr (.inr ⟨inside.trans date, by simp only; omega⟩)
    · exact .inr (.inr ⟨gone.1, lt_of_lt_of_le gone.2 later⟩)

variable (kept : ∀ token ∈ world.token, ∀ session,
  world.kobo.find token.syncId = some session → kobo.find token.syncId = some session)
include kept

/-- Pruning alone, or with requests whose answer the device never sees. -/
theorem ShelvesFollowed.pruned :
    ShelvesFollowed user extensions
      { world with kobo, store := world.store.pruneTombstones now, clock := now } where
  __ := followed
  unused := IdsUnused.prune followed.unused
  dated tombstone left := followed.dated tombstone (mem_pruneTombstones.mp left).1
  past := followed.past.trans later
  token := (followed.staysPruned later kobo).token followed kept

theorem ShelvesFollowed.ticked :
    ShelvesFollowed user extensions { world with kobo, clock := now } where
  __ := followed
  past := followed.past.trans later
  token :=
    have stays : StaysCurrent user extensions world { world with kobo, clock := now } :=
      staysTicked world rfl rfl rfl later
    stays.token followed kept

end Prune

section Request

/-- What a request is served from: a stored session whose last page the device awaits. -/
structure Opened (user : Actor) (extensions : List String) (world : ShelfWorld) (now : Int)
    (opened : KoboStore × SyncSession × Nat) : Prop where
  found : opened.1.find opened.2.1.id = some opened.2.1
  old : opened.2.1.createdAt ≤ now
  kept : ∀ token ∈ world.token, ∀ session, world.kobo.find token.syncId = some session →
    opened.1.find token.syncId = some session
  awaiting : Awaiting user extensions world opened.2.1

/-- A session begun anew starts where the device is current. -/
theorem ShelvesFollowed.acknowledged (followed : ShelvesFollowed user extensions world)
    {since : Option Int} (served : world.kobo.serve world.token = .fresh since) :
    (since = none → world.shelves = []) ∧
      ∀ time ∈ since, time ≤ world.clock ∧ Current user extensions world time := by
  obtain ⟨start, completed⟩ := serve_fresh served
  cases here : world.token with
  | none =>
    rw [here] at start
    subst start
    exact ⟨fun _ => followed.untouched here, nofun⟩
  | some token =>
    obtain ⟨session, found, old, reached⟩ := followed.token token here
    rw [completed token here (by simp [found])] at reached
    rw [here, Option.bind_some, found, Option.map_some] at start
    subst start
    refine ⟨nofun, ?_⟩
    rintro time ⟨⟩
    exact ⟨old, reached⟩

theorem ShelvesFollowed.opened (followed : ShelvesFollowed user extensions world)
    (later : world.clock ≤ now) {id : String}
    (fresh : ∀ session ∈ world.kobo.sessions, session.id ≠ id) (viewer : AuthUser)
    (deviceId : Option String) :
    Opened user extensions world now
      (world.kobo.openSession viewer deviceId extensions now id world.token) := by
  unfold KoboStore.openSession
  cases served : world.kobo.serve world.token with
  | resume session offset =>
    obtain ⟨syncId, held, found⟩ := serve_resume served
    obtain ⟨stored, same, old, awaiting⟩ := followed.token _ held
    obtain rfl := Option.mem_unique found same
    exact ⟨find_key found ▸ found, old.trans later, fun _ _ _ found => found, awaiting⟩
  | fresh since =>
    obtain ⟨full, window⟩ := followed.acknowledged served
    obtain ⟨begun, kept, -⟩ := beginNewSync_spec world.kobo viewer deviceId extensions
      (world.token.map SyncToken.syncId).toList now since fresh
    refine ⟨begun.found, begun.createdAt.le, fun token held session found => ?_,
      fun none => full (begun.previous.symm.trans none), fun time start => ?_⟩
    · exact kept token.syncId (by simp [show world.token = some token from held]) session found
    · exact window time (begun.previous ▸ start)

/-- Two shelves of a user with one id are one. -/
theorem shelf_unique (unused : IdsUnused user store)
    {one other : ShelfProjection} (first : one ∈ store.shelvesForUser user extensions)
    (second : other ∈ store.shelvesForUser user extensions) (same : one.shelfId = other.shelfId) :
    one = other := by
  obtain ⟨kind, row, found, -, rfl⟩ := (mem_shelvesForUser unused).mp first
  obtain ⟨otherKind, otherRow, otherFound, -, rfl⟩ := (mem_shelvesForUser unused).mp second
  have named : row.id = otherRow.id := same
  rw [named] at found
  obtain rfl := unused.disjoint otherRow.id kind otherKind (by simp [found]) (by simp [otherFound])
  rw [Option.mem_unique found otherFound]

/-- The tags of a last page, applied: the shelves of the user, no more and no less. -/
theorem Awaiting.applied (awaiting : Awaiting user extensions world session)
    (followed : ShelvesFollowed user extensions world) (later : world.clock ≤ now)
    (window : page.previousSyncAt = session.previousSyncAt) (last : page.shouldContinue = false)
    (inside : ∀ since ∈ page.previousSyncAt, now ≤ since + koboShelfTombstoneTtl)
    (shelf : DeviceShelf) :
    shelf ∈ (appendShelfItems world.store user extensions now page).2.foldl applyTag world.shelves ↔
      ∃ live ∈ world.store.shelvesForUser user extensions, deviceShelf live = shelf := by
  have unused := followed.unused
  have shelves : (world.store.pruneTombstones now).shelvesForUser user extensions =
      world.store.shelvesForUser user extensions := rfl
  have unique : ∀ batch : List ShelfProjection,
      (∀ live ∈ batch, live ∈ world.store.shelvesForUser user extensions) →
      ∀ one ∈ batch.map deviceShelf, ∀ other ∈ batch.map deviceShelf, one.id = other.id →
        one = other := by
    intro batch live one first other second same
    obtain ⟨left, member, rfl⟩ := mem_map.mp first
    obtain ⟨right, stored, rfl⟩ := mem_map.mp second
    rw [shelf_unique unused (live left member) (live right stored) same]
  unfold appendShelfItems ContainerStore.shelfSyncDelta
  rw [last]
  simp only [Bool.false_eq_true, if_false, shelves]
  cases start : page.previousSyncAt with
  | none =>
    have empty := awaiting.full (window ▸ start)
    simp only [map_nil, append_nil]
    rw [foldl_putTags _ fun _ _ => rfl, mem_foldl_upsert_unique (unique _ fun _ member =>
      member), empty]
    simp
  | some since =>
    obtain ⟨-, current⟩ := awaiting.window since (window ▸ start)
    have bound := inside since start
    simp only [map_nil, nil_append, foldl_append]
    rw [mem_foldl_deletedTags, foldl_putTags _ fun _ _ => rfl, mem_foldl_upsert_unique
      (unique _ fun _ member => (mem_filter.mp member).1)]
    simp only [mem_map, mem_filter, mem_orderBy, mem_scan, decide_eq_true_eq,
      mem_pruneTombstones]
    constructor
    · rintro ⟨⟨live, ⟨member, -⟩, rfl⟩ | ⟨shown, unchanged⟩, undeleted⟩
      · exact ⟨live, member, rfl⟩
      rcases current.extra shelf shown with ⟨live, member, named⟩ | ⟨tombstone, left, mine⟩ | gone
      · refine ⟨live, member, ?_⟩
        rcases current.missing live member with right | late
        · exact followed.unique _ right shelf shown named
        · exact absurd named.symm (unchanged _ ⟨live, ⟨member, late⟩, rfl⟩)
      · exact absurd ⟨tombstone, ⟨⟨left, by omega⟩, mine.1, mine.2.2⟩, mine.2.1⟩ undeleted
      · exact absurd (lt_of_lt_of_le gone.2 later) (not_lt.mpr bound)
    · rintro ⟨live, member, rfl⟩
      have alive : ¬∃ tombstone, ((tombstone ∈ world.store.tombstones ∧
          now - koboShelfTombstoneTtl ≤ tombstone.deletedAt) ∧ tombstone.userId = user.id ∧
          since ≤ tombstone.deletedAt) ∧ tombstone.shelfId = (deviceShelf live).id := by
        rintro ⟨tombstone, ⟨⟨left, -⟩, mine, -⟩, named⟩
        obtain ⟨kind, row, found, -, rfl⟩ := (mem_shelvesForUser unused).mp member
        have buried := unused.buried tombstone left mine kind
        rw [named] at buried
        cases buried.symm.trans found
      refine ⟨?_, alive⟩
      by_cases late : since ≤ live.lastModified
      · exact .inl ⟨live, ⟨member, late⟩, rfl⟩
      · refine .inr ⟨(current.missing live member).resolve_right late, ?_⟩
        rintro _ ⟨changed, ⟨stored, inWindow⟩, rfl⟩ same
        exact late (shelf_unique unused member stored same ▸ inWindow)

end Request

section Deliver

variable {id : String}

/-- Containers after a page: pruned if it was the last. -/
theorem appendShelfItems_store (store : ContainerStore) (page : SyncPage) :
    (appendShelfItems store user extensions now page).1 =
      if page.shouldContinue then store else store.pruneTombstones now := by
  unfold appendShelfItems ContainerStore.shelfSyncDelta
  split
  · rfl
  · cases page.previousSyncAt <;> rfl

theorem appendShelfItems_continues
    (more : page.shouldContinue = true) :
    (appendShelfItems store user extensions now page).2 = [] := by
  simp [appendShelfItems, more]

variable (followed : ShelvesFollowed user extensions world) (later : world.clock ≤ now)
  (fresh : ∀ session ∈ world.kobo.sessions, session.id ≠ id)
include followed later fresh

/-- A request whose answer is lost. -/
theorem ShelvesFollowed.lose (deviceId : Option String) (limit : Nat) :
    ShelvesFollowed user extensions
      { world with
        kobo := (world.page user extensions deviceId now id limit).1
        store := (world.tags user extensions deviceId now id limit).1
        clock := now } := by
  have opened := followed.opened later fresh user.toAuthUser deviceId
  unfold ShelfWorld.tags
  rw [appendShelfItems_store]
  split
  · exact followed.ticked later opened.kept
  · exact followed.pruned later opened.kept

theorem ShelvesFollowed.sync {deviceId : Option String} {limit : Nat}
    (inside : (world.page user extensions deviceId now id limit).2.shouldContinue = false →
      ∀ since ∈ (world.page user extensions deviceId now id limit).2.previousSyncAt,
        now ≤ since + koboShelfTombstoneTtl) :
    ShelvesFollowed user extensions
      { world with
        kobo := (world.page user extensions deviceId now id limit).1
        store := (world.tags user extensions deviceId now id limit).1
        token := some (world.page user extensions deviceId now id limit).2.syncToken
        shelves := (world.tags user extensions deviceId now id limit).2.foldl applyTag world.shelves
        clock := now } := by
  have lost := followed.lose later fresh deviceId limit
  obtain ⟨found, old, -, awaiting⟩ := followed.opened later fresh user.toAuthUser deviceId
  unfold ShelfWorld.tags ShelfWorld.page KoboStore.nextPage at *
  generalize world.kobo.openSession user.toAuthUser deviceId extensions now id world.token =
    opened at *
  obtain ⟨kobo, session, offset⟩ := opened
  have syncId := SyncPage.syncId_new session offset limit
  have shape := SyncPage.token_new session offset limit
  simp only at found old awaiting inside lost ⊢
  have window : (SyncPage.new session offset limit).previousSyncAt = session.previousSyncAt := rfl
  generalize SyncPage.new session offset limit = page at *
  cases more : page.shouldContinue with
  | true =>
    rw [appendShelfItems_store, more] at lost
    rw [appendShelfItems_store, appendShelfItems_continues more, more]
    refine { lost with untouched := nofun, token := ?_ }
    rintro _ ⟨⟩
    refine ⟨session, syncId ▸ found, old, ?_⟩
    rw [shape, more]
    refine StaysCurrent.awaiting ?_ awaiting
    exact staysTicked world rfl rfl rfl later
  | false =>
    have applied := awaiting.applied followed later window more (inside more)
    rw [appendShelfItems_store, more] at lost
    rw [appendShelfItems_store, more]
    refine { lost with unique := ?_, untouched := nofun, token := ?_ }
    · intro one first other second same
      obtain ⟨left, member, rfl⟩ := (applied one).mp first
      obtain ⟨right, stored, rfl⟩ := (applied other).mp second
      rw [shelf_unique followed.unused member stored same]
    rintro _ ⟨⟩
    refine ⟨session, syncId ▸ found, old, ?_⟩
    rw [shape, more]
    refine ⟨fun shelf member => .inl ((applied _).mpr ⟨shelf, member, rfl⟩), fun shelf shown => ?_⟩
    obtain ⟨live, member, rfl⟩ := (applied shelf).mp shown
    exact .inl ⟨live, member, rfl⟩

end Deliver

end Invariant

section Main

variable [Host] (user : Actor) (extensions : List String)

theorem shelves_followed_of_reachable {world : ShelfWorld}
    (reachable : (shelfSystem (Careful user) user extensions).Reachable world) :
    ShelvesFollowed user extensions world := by
  refine reachable.invariant ?_ ?_
  · intro world fresh
    exact
      { unused := fresh.unused
        unique := by simp [fresh.empty]
        modified := fresh.modified
        dated := fresh.dated
        past := fresh.past
        untouched := fun _ => fresh.empty
        token := by simp [fresh.untouched] }
  · intro world next followed transition
    cases transition with
    | write call later accepted careful => exact followed.write later accepted careful
    | sync deviceId id limit later fresh inside => exact followed.sync later fresh inside
    | lose deviceId id limit later fresh => exact followed.lose later fresh deviceId limit
    | prune later => exact followed.pruned later fun _ _ _ found => found

/-- In every run whose calls create containers under ids that are not in use and not
buried, and delete no reading list of another user that this user sees: after a completed
session, and with no write since it began, the shelves of the device are those of the
user. -/
theorem shelves_converge {world : ShelfWorld}
    (reachable : (shelfSystem (Careful user) user extensions).Reachable world) {syncId : String}
    {session : SyncSession} (completed : world.token = some (.completedV1 syncId))
    (found : world.kobo.find syncId = some session) (quiet : world.writtenAt < session.createdAt)
    (shelf : DeviceShelf) :
    shelf ∈ world.shelves ↔
      ∃ live ∈ world.store.shelvesForUser user extensions,
        shelf = ⟨live.shelfId, live.name, live.items⟩ := by
  have followed := shelves_followed_of_reachable user extensions reachable
  obtain ⟨stored, same, -, current⟩ := followed.token _ completed
  obtain rfl := Option.mem_unique same found
  have shown : ∀ live ∈ world.store.shelvesForUser user extensions,
      deviceShelf live ∈ world.shelves := by
    intro live member
    refine (current.missing live member).resolve_right fun late => ?_
    have before := followed.modified live member
    omega
  constructor
  · intro held
    rcases current.extra shelf held with ⟨live, member, named⟩ |
      ⟨tombstone, left, -, -, late⟩ | gone
    · exact ⟨live, member, (followed.unique _ (shown live member) shelf held named).symm⟩
    · have before := followed.dated tombstone left
      omega
    · have before := gone.1
      omega
  · rintro ⟨live, member, rfl⟩
    exact shown live member

end Main

section Sample

local instance shelvesHost : Host := Host.sample

def sampleShelver : Actor := ⟨⟨[], none, none⟩, "shelver", false⟩

def sampleCurator : Actor := ⟨⟨[], none, none⟩, "curator", false⟩

/-- No containers, and a device that never synced. -/
def sampleBare : ShelfWorld :=
  { kobo := ⟨[], [], [], []⟩
    store := ⟨⟨[], []⟩, ⟨[], []⟩, [], [], [], []⟩
    token := none
    shelves := []
    clock := 0
    writtenAt := 0 }

theorem sampleBare_find (kind : ContainerKind) (id : String) :
    sampleBare.store.find kind id = none := by
  cases kind <;> rfl

theorem sampleBare_fresh : sampleBare.Fresh sampleShelver ["epub"] where
  untouched := rfl
  empty := rfl
  unused :=
    { distinct := fun kind => by cases kind <;> decide
      disjoint := fun id kind other found => by cases kind <;> simp [sampleBare_find] at found
      buried := fun tombstone left => by simp [sampleBare] at left }
  modified := by decide
  dated := by decide
  past := le_rfl

/-- The id the device of the sample gives its shelf. -/
def sampleShelfId : String := "11111111-1111-1111-1111-111111111111"

def sampleShelving : Call :=
  .createDeviceShelf sampleShelver "minted" (some sampleShelfId) "Read" (some "Libra")

/-- A shelf deleted and created again under its id is deleted from the device; a public
list deleted by the user who made it stays on the devices of others. -/
theorem shelves_diverge :
    (∃ world, (shelfSystem (fun _ _ => True) sampleShelver ["epub"]).Reachable world ∧
      (∃ session, world.token = some (.completedV1 "second") ∧
        world.kobo.find "second" = some session ∧ world.writtenAt < session.createdAt) ∧
      world.shelves = [] ∧
      (world.store.shelvesForUser sampleShelver ["epub"]).map deviceShelf =
        [⟨sampleShelfId, "Read", []⟩]) ∧
    ∃ world, (shelfSystem (fun _ _ => True) sampleShelver ["epub"]).Reachable world ∧
      (∃ session, world.token = some (.completedV1 "second") ∧
        world.kobo.find "second" = some session ∧ world.writtenAt < session.createdAt) ∧
      world.shelves = [⟨"list", "Picks", []⟩] ∧
      world.store.shelvesForUser sampleShelver ["epub"] = [] := by
  have start : (shelfSystem (fun _ _ => True) sampleShelver ["epub"]).Reachable sampleBare :=
    .initial sampleBare_fresh
  constructor
  · have shelved := start.step (.write sampleShelving (by decide : (0 : Int) ≤ 1) rfl trivial)
    have synced :=
      shelved.step (.sync none "first" 10 (by decide : (1 : Int) ≤ 2) nofun (by decide))
    have deleted := synced.step (.write (.deleteShelf sampleShelver "tombstone" sampleShelfId)
      (by decide : (2 : Int) ≤ 3) rfl trivial)
    have again := deleted.step (.write sampleShelving (by decide : (3 : Int) ≤ 4) rfl trivial)
    have last :=
      again.step (.sync none "second" 10 (by decide : (4 : Int) ≤ 5) (by decide) (by decide))
    exact ⟨_, last, ⟨_, by decide, rfl, by decide⟩, by decide, by decide⟩
  · have listed := start.step (.write (.createReadingList sampleCurator
      ⟨"list", "Picks", some .isPublic, []⟩) (by decide : (0 : Int) ≤ 1) rfl trivial)
    have synced := listed.step (.sync none "first" 10 (by decide : (1 : Int) ≤ 2) nofun (by decide))
    have deleted := synced.step (.write (.deleteReadList sampleCurator "tombstone" "list")
      (by decide : (2 : Int) ≤ 3) rfl trivial)
    have last :=
      deleted.step (.sync none "second" 10 (by decide : (3 : Int) ≤ 4) (by decide) (by decide))
    exact ⟨_, last, ⟨_, by decide, rfl, by decide⟩, by decide, by decide⟩

/-- A second shelf of the device. -/
def sampleOtherId : String := "22222222-2222-2222-2222-222222222222"

/-- The device has two shelves; one is renamed, the other deleted, and the next session,
which starts from the first, tells it so. -/
theorem shelves_converge_sample :
    ∃ world, (shelfSystem (Careful sampleShelver) sampleShelver ["epub"]).Reachable world ∧
      ∀ shelf, shelf ∈ world.shelves ↔ shelf = ⟨sampleShelfId, "Done", []⟩ := by
  have start : (shelfSystem (Careful sampleShelver) sampleShelver ["epub"]).Reachable sampleBare :=
    .initial sampleBare_fresh
  have shelved := start.step (.write sampleShelving (by decide : (0 : Int) ≤ 1) rfl
    { unused := fun _ id _ _ => ⟨fun other => sampleBare_find other id, by simp [sampleBare]⟩
      own := fun _ deletes => deletes.elim })
  have both := shelved.step (.write
    (.createDeviceShelf sampleShelver "minted" (some sampleOtherId) "Later" none)
    (by decide : (1 : Int) ≤ 2) rfl
    { unused := fun kind id creates none => by
        obtain ⟨rfl, rfl, -⟩ := creates
        exact ⟨fun other => by cases other <;> decide, by decide⟩
      own := fun _ deletes => deletes.elim })
  have first := both.step (.sync none "first" 10 (by decide : (2 : Int) ≤ 3) nofun (by decide))
  have renamed := first.step (.write (.renameShelf sampleShelver sampleShelfId "Done" none)
    (by decide : (3 : Int) ≤ 4) rfl
    { unused := fun _ _ creates => creates.elim
      own := fun _ deletes => deletes.elim })
  have deleted := renamed.step (.write (.deleteShelf sampleShelver "tombstone" sampleOtherId)
    (by decide : (4 : Int) ≤ 5) rfl
    { unused := fun _ _ creates => creates.elim
      own := fun _ _ found => by cases found })
  have second :=
    deleted.step (.sync none "second" 10 (by decide : (5 : Int) ≤ 6) (by decide) (by decide))
  refine ⟨_, second, fun shelf =>
    (shelves_converge sampleShelver ["epub"] second rfl rfl (by decide) shelf).trans ?_⟩
  generalize listed : ContainerStore.shelvesForUser _ sampleShelver ["epub"] = shelves
  obtain rfl : shelves = [⟨sampleShelfId, "Done", 4, []⟩] := listed.symm.trans (by decide)
  simp

end Sample

end Coppice.Kobo
