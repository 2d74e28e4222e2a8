import Coppice.Devices.LibraryScope
import Coppice.Std.System

/-!
# Entitlements follow the library scope

The books a Kobo holds are moved by three things: a session's list of ids, the deltas
a scope change records, and the scope in force when a page is built. A book that has
not moved since a session began is, at every point of the session, where the scope
puts it or still to be sent or taken away; `Pending` says so, pages discharge it, and
a completed session leaves nothing pending. Books in the trash are synced but never
recorded as moved, so they are outside of this; and so is a device whose requests do not
name it by its id in the registry, since the deltas are kept under that id.
-/

namespace Coppice.Kobo

open Coppice.Std Models Coppice.Devices List

/-- The books a device holds after one item: granted ones are added, removed ones
dropped. -/
def applyItem (held : List String) : SyncItem → List String
  | .newEntitlement book _ _ => held ++ [book.media.id]
  | .changedEntitlement book _ _ true => held.filter (· ≠ book.media.id)
  | .changedEntitlement _ _ _ false => held
  | .changedProductMetadata _ _ _ => held
  | .changedReadingState _ _ => held

def SyncItem.grants (item : SyncItem) (id : String) : Prop :=
  ∃ book url format, item = .newEntitlement book url format ∧ book.media.id = id

def SyncItem.revokes (item : SyncItem) (id : String) : Prop :=
  ∃ book url format, item = .changedEntitlement book url format true ∧ book.media.id = id

variable {store : KoboStore} {page : SyncPage} {id : String} {now : Int} {media : Media}

section Items

variable {held : List String} {removals : List SyncItem}

theorem mem_applyItem {item : SyncItem} :
    id ∈ applyItem held item ↔ (id ∈ held ∧ ¬item.revokes id) ∨ item.grants id := by
  cases item with
  | newEntitlement book url format =>
    simp [applyItem, SyncItem.grants, SyncItem.revokes, @eq_comm _ id]
  | changedEntitlement book url format isRemoved =>
    cases isRemoved
    · simp [applyItem, SyncItem.grants, SyncItem.revokes]
    · simp [applyItem, SyncItem.grants, SyncItem.revokes, @eq_comm _ id]
  | changedProductMetadata | changedReadingState =>
    simp [applyItem, SyncItem.grants, SyncItem.revokes]

theorem mem_applyRemovals
    (noGrant : ∀ item ∈ removals, ¬item.grants id) :
    id ∈ removals.foldl applyItem held ↔ id ∈ held ∧ ∀ item ∈ removals, ¬item.revokes id := by
  induction removals generalizing held with
  | nil => simp
  | cons item removals ih =>
    rw [foldl_cons, ih (forall_mem_cons.1 noGrant).2,
      mem_applyItem]
    simp [noGrant item mem_cons_self, and_assoc]

/-- Grants first and removals after: what a page leaves on the device. -/
theorem mem_applyItems {grants : List SyncItem}
    (noRemoval : ∀ item ∈ grants, ¬item.revokes id) (noGrant : ∀ item ∈ removals, ¬item.grants id) :
    id ∈ (grants ++ removals).foldl applyItem held ↔
      (id ∈ held ∨ ∃ item ∈ grants, item.grants id) ∧ ∀ item ∈ removals, ¬item.revokes id := by
  induction grants generalizing held with
  | nil => simpa using mem_applyRemovals noGrant
  | cons item grants ih =>
    rw [cons_append, foldl_cons,
      ih (forall_mem_cons.1 noRemoval).2, mem_applyItem]
    simp [noRemoval item mem_cons_self, or_assoc]

end Items

section Page

variable {user : AuthUser} {extensions ids entered : List String} {koboApiBaseUrl : String}
  {item : SyncItem} {book : SyncedBook} {deviceId : Option String}

/-- What a page may say about one of its books. -/
theorem mem_bookItems (member : item ∈ KoboStore.bookItems page entered koboApiBaseUrl book) :
    (∃ url format, item = .newEntitlement book url format) ∨
      (∃ url format, item = .changedProductMetadata book url format) ∨
      ∃ session, item = .changedReadingState book.media.id session := by
  unfold KoboStore.bookItems at member
  split at member
  · exact .inl ⟨_, _, mem_singleton.mp member⟩
  rcases mem_append.mp member with changed | read
  · split at changed
    · exact .inr (.inl ⟨_, _, mem_singleton.mp changed⟩)
    · simp at changed
  split at read
  · simp at read
  · split at read
    · exact .inr (.inr ⟨_, mem_singleton.mp read⟩)
    · simp at read

theorem bookItems_revokes
    (member : item ∈ KoboStore.bookItems page entered koboApiBaseUrl book) : ¬item.revokes id := by
  rintro ⟨other, url, format, rfl, -⟩
  rcases mem_bookItems member with ⟨_, _, same⟩ | ⟨_, _, same⟩ | ⟨_, same⟩ <;> cases same

/-- A book is granted exactly when it is new to the device. -/
theorem bookItems_grants :
    (∃ item ∈ KoboStore.bookItems page entered koboApiBaseUrl book, item.grants id) ↔
      book.media.id = id ∧ ((∀ since ∈ page.previousSyncAt, since ≤ book.media.createdAt) ∨
        book.media.id ∈ entered) := by
  constructor
  · rintro ⟨item, member, other, url, format, rfl, named⟩
    have same : book = other := by
      rcases mem_bookItems member with ⟨_, _, same⟩ | ⟨_, _, same⟩ | ⟨_, same⟩
      · exact (SyncItem.newEntitlement.inj same).1.symm
      · cases same
      · cases same
    refine ⟨same ▸ named, ?_⟩
    by_contra known
    unfold KoboStore.bookItems at member
    rw [if_neg known] at member
    rcases mem_append.mp member with changed | read
    · split at changed <;> simp at changed
    · split at read
      · simp at read
      · split at read <;> simp at read
  · rintro ⟨rfl, new⟩
    unfold KoboStore.bookItems
    rw [if_pos new]
    exact ⟨_, mem_singleton_self _, ⟨book, _, _, rfl, rfl⟩⟩

variable [Host]

theorem mem_findByIdsForUser (found : book ∈ store.findByIdsForUser user ids extensions) :
    book.media ∈ store.media ∧ user.sees book.media = true ∧ book.media.id ∈ ids ∧
      book.media.extension ∈ extensions := by
  unfold KoboStore.findByIdsForUser at found
  simp only [mem_map, mem_scan, mem_filter, decide_eq_true_eq] at found
  obtain ⟨media, ⟨stored, sees, named, covered⟩, rfl⟩ := found
  exact ⟨stored, sees, named, covered⟩

theorem findByIdsForUser_of_mem (stored : media ∈ store.media)
    (sees : user.sees media = true) (named : media.id ∈ ids)
    (covered : media.extension ∈ extensions) :
    ∃ book ∈ store.findByIdsForUser user ids extensions, book.media = media := by
  unfold KoboStore.findByIdsForUser
  simp only [mem_map, mem_scan, mem_filter, decide_eq_true_eq]
  exact ⟨_, ⟨media, ⟨stored, sees, named, covered⟩, rfl⟩, rfl⟩

/-- A page hands the device a book: it is on the page, seen, and new to the device. -/
def SyncPage.Adds (page : SyncPage) (store : KoboStore) (user : AuthUser)
    (deviceId : Option String) (extensions : List String) (id : String) : Prop :=
  ∃ media ∈ store.media, media.id = id ∧ user.sees media = true ∧ media.extension ∈ extensions ∧
    id ∈ page.mediaIds ∧ ((∀ since ∈ page.previousSyncAt, since ≤ media.createdAt) ∨
      ∃ since ∈ page.previousSyncAt, ∃ delta ∈ store.deltasOf deviceId, delta.mediaId = id ∧
        delta.removed = false ∧ since ≤ delta.createdAt)

/-- A page takes a book away: it is the last one, and the book left in the window. -/
def SyncPage.Drops (page : SyncPage) (store : KoboStore) (user : AuthUser)
    (deviceId : Option String) (extensions : List String) (id : String) : Prop :=
  page.shouldContinue = false ∧
    (∃ media ∈ store.media, media.id = id ∧ user.inherit.sees media = true ∧
      media.extension ∈ extensions) ∧
    ∃ since ∈ page.previousSyncAt, ∃ delta ∈ store.deltasOf deviceId, delta.mediaId = id ∧
      delta.removed = true ∧ since ≤ delta.createdAt

theorem mem_enteredScopeIds :
    id ∈ store.enteredScopeIds deviceId page ↔ id ∈ page.mediaIds ∧
      ∃ since ∈ page.previousSyncAt, ∃ delta ∈ store.deltasOf deviceId, delta.mediaId = id ∧
        delta.removed = false ∧ since ≤ delta.createdAt := by
  unfold KoboStore.enteredScopeIds
  cases page.previousSyncAt with
  | none => simp
  | some since =>
    simp only [mem_filter, mem_enteredScopeMediaIds, decide_eq_true_eq, Option.mem_def,
      Option.some.injEq, exists_eq_left', and_comm]

theorem syncItems_grants :
    (∃ item ∈ (store.findByIdsForUser user page.mediaIds extensions).flatMap
        (KoboStore.bookItems page (store.enteredScopeIds deviceId page) koboApiBaseUrl),
      item.grants id) ↔ page.Adds store user deviceId extensions id := by
  constructor
  · rintro ⟨item, member, grants⟩
    obtain ⟨book, found, mine⟩ := mem_flatMap.mp member
    obtain ⟨stored, sees, named, covered⟩ := mem_findByIdsForUser found
    obtain ⟨rfl, new⟩ := bookItems_grants.mp ⟨item, mine, grants⟩
    refine ⟨book.media, stored, rfl, sees, covered, named, ?_⟩
    rcases new with created | entered
    · exact .inl created
    · exact .inr (mem_enteredScopeIds.mp entered).2
  · rintro ⟨media, stored, rfl, sees, covered, named, new⟩
    obtain ⟨book, found, rfl⟩ := findByIdsForUser_of_mem stored sees named covered
    have granted : (∀ since ∈ page.previousSyncAt, since ≤ book.media.createdAt) ∨
        book.media.id ∈ store.enteredScopeIds deviceId page := by
      rcases new with created | entered
      · exact .inl created
      · exact .inr (mem_enteredScopeIds.mpr ⟨named, entered⟩)
    obtain ⟨item, mine, grants⟩ := bookItems_grants.mpr ⟨rfl, granted⟩
    exact ⟨item, mem_flatMap.mpr ⟨book, found, mine⟩, grants⟩

theorem removedEntitlements_grants
    (member : item ∈ store.removedEntitlements user deviceId extensions page koboApiBaseUrl) :
    ¬item.grants id := by
  unfold KoboStore.removedEntitlements at member
  split at member
  · simp at member
  · obtain ⟨book, -, rfl⟩ := mem_map.mp member
    simp [SyncItem.grants]

theorem removedEntitlements_revokes :
    (∃ item ∈ store.removedEntitlements user deviceId extensions page koboApiBaseUrl,
        item.revokes id) ↔
      (∃ media ∈ store.media, media.id = id ∧ user.inherit.sees media = true ∧
        media.extension ∈ extensions) ∧
      ∃ since ∈ page.previousSyncAt, ∃ delta ∈ store.deltasOf deviceId, delta.mediaId = id ∧
        delta.removed = true ∧ since ≤ delta.createdAt := by
  unfold KoboStore.removedEntitlements
  cases page.previousSyncAt with
  | none => simp
  | some since =>
    have listed : ∀ id, id ∈ (Host.scan ((store.deltasOf deviceId).filter fun delta =>
        delta.removed ∧ since ≤ delta.createdAt)).map EntitlementDelta.mediaId ↔
        ∃ delta ∈ store.deltasOf deviceId, delta.mediaId = id ∧ delta.removed = true ∧
          since ≤ delta.createdAt := by
      intro id
      simp only [mem_map, mem_scan, mem_filter, decide_eq_true_eq]
      constructor
      · rintro ⟨delta, ⟨stored, removed, inside⟩, named⟩
        exact ⟨delta, stored, named, removed, inside⟩
      · rintro ⟨delta, stored, named, removed, inside⟩
        exact ⟨delta, ⟨stored, removed, inside⟩, named⟩
    simp only [Option.mem_def, Option.some.injEq, exists_eq_left']
    constructor
    · rintro ⟨item, member, other, url, format, rfl, rfl⟩
      obtain ⟨book, found, same⟩ := mem_map.mp member
      obtain ⟨rfl, -⟩ := SyncItem.changedEntitlement.inj same
      obtain ⟨stored, owned, named, covered⟩ := mem_findByIdsForUser found
      exact ⟨⟨book.media, stored, rfl, owned, covered⟩, (listed _).mp named⟩
    · rintro ⟨⟨media, stored, rfl, owned, covered⟩, left⟩
      obtain ⟨book, found, rfl⟩ :=
        findByIdsForUser_of_mem stored owned ((listed _).mpr left) covered
      exact ⟨_, mem_map_of_mem found, ⟨book, _, _, rfl, rfl⟩⟩

/-- What a page leaves on the device. -/
theorem mem_applySyncItems :
    id ∈ (store.syncItems user deviceId extensions page koboApiBaseUrl).foldl applyItem held ↔
      (id ∈ held ∨ page.Adds store user deviceId extensions id) ∧
        ¬page.Drops store user deviceId extensions id := by
  unfold KoboStore.syncItems
  rw [mem_applyItems, syncItems_grants]
  · unfold SyncPage.Drops
    cases page.shouldContinue with
    | true => simp
    | false =>
      have removals := @removedEntitlements_revokes store page id user extensions koboApiBaseUrl
        deviceId _
      rw [← removals]
      simp
  · intro item member
    obtain ⟨book, -, mine⟩ := mem_flatMap.mp member
    exact bookItems_revokes mine
  · intro item member
    split at member
    · simp at member
    · exact removedEntitlements_grants member

end Page

/-- A request being served: its session and offset, the scope it was bound to, and the
device it names. -/
structure Inflight where
  session : SyncSession
  offset : Nat
  scope : LibraryScope
  deviceId : Option String
deriving DecidableEq, Repr

/-- The server, one device of a user, and the request in flight; with the time the
scope last changed. -/
structure ScopeWorld where
  store : KoboStore
  scope : LibraryScope
  token : Option SyncToken
  inflight : Option Inflight
  held : List String
  clock : Int
  scopedAt : Int
deriving DecidableEq, Repr

section System

variable [Host] (libraries : List String) (user : AuthUser) (extensions : List String)
  (device : String) (names : Option String → Prop)

/-- A request opens its session. -/
def ScopeWorld.ask (world : ScopeWorld) (deviceId : Option String) (now : Int) (id : String) :
    ScopeWorld :=
  let (store, session, offset) := world.store.openSession (bindDevice user world.scope) deviceId
    extensions now id world.token
  { world with
    clock := now
    store
    inflight := some { session, offset, scope := world.scope, deviceId } }

/-- The page of a request is built, and arrives. -/
def ScopeWorld.deliver (world : ScopeWorld) (now : Int) (flight : Inflight) (limit : Nat)
    (koboApiBaseUrl : String) : ScopeWorld :=
  let page := SyncPage.new flight.session flight.offset limit
  let items := world.store.syncItems (bindDevice user flight.scope) flight.deviceId extensions page
    koboApiBaseUrl
  { world with
    clock := now
    inflight := none
    token := some page.syncToken
    held := items.foldl applyItem world.held }

/-- A scope change, or a step of a sync request: the session is opened, and its page is
built and arrives, or is lost. A request names a device that `names` admits, or none. -/
inductive ScopeStep : ScopeWorld → ScopeWorld → Prop where
  | setScope {world : ScopeWorld} {now : Int} {scope : LibraryScope} {store : KoboStore}
      (later : world.clock < now)
      (accepted : setLibraryScope world.store libraries user device world.scope now scope =
        .ok (store, scope)) :
      ScopeStep world
        { world with
          store := store
          scope := scope
          clock := now
          scopedAt := if scope = world.scope then world.scopedAt else now }
  | ask {world : ScopeWorld} {now : Int} (deviceId : Option String) (named : names deviceId)
      (id : String) (later : world.clock < now) (idle : world.inflight = none)
      (fresh : ∀ session ∈ world.store.sessions, session.id ≠ id) :
      ScopeStep world (world.ask user extensions deviceId now id)
  | deliver {world : ScopeWorld} {now : Int} {flight : Inflight} (limit : Nat)
      (koboApiBaseUrl : String) (later : world.clock < now)
      (serving : world.inflight = some flight) :
      ScopeStep world (world.deliver user extensions now flight limit koboApiBaseUrl)
  | lose {world : ScopeWorld} {now : Int} (later : world.clock < now) :
      ScopeStep world { world with clock := now, inflight := none }

/-- A device that never synced, and books of existing libraries. -/
structure ScopeWorld.Fresh (world : ScopeWorld) : Prop where
  untouched : world.token = none
  idle : world.inflight = none
  empty : world.held = []
  unmoved : world.store.deltasOf (some device) = []
  distinct : (world.store.media.map Media.id).Nodup
  known : ∀ media ∈ world.store.media, media.libraryId ∈ libraries
  past : world.scopedAt ≤ world.clock

/-- Scope changes and syncs of one device over a fixed set of books. -/
def scopeSystem : System ScopeWorld where
  Initial := ScopeWorld.Fresh libraries device
  Step := ScopeStep libraries user extensions device names

end System

section Invariant

/-- The book changed side at `time` or later. -/
def Moved (device : String) (store : KoboStore) (id : String) (time : Int) : Prop :=
  ∃ delta ∈ store.deltasOf (some device), delta.mediaId = id ∧ time ≤ delta.createdAt

variable (libraries : List String) (user : AuthUser) (extensions : List String) (device : String)
  {world next : ScopeWorld} {session : SyncSession}

/-- The device is to hold the book. -/
def Entitled (scope : LibraryScope) (media : Media) : Prop :=
  (bindDevice user scope).sees media = true ∧ media.extension ∈ extensions

/-- Midway through a session: a book that has not moved since it began is where the
scope puts it, still to be sent, or to be taken away at the end. -/
def Pending (world : ScopeWorld) (session : SyncSession) (offset : Nat) : Prop :=
  ∀ media ∈ world.store.media, media.deletedAt = none →
    ¬Moved device world.store media.id session.createdAt →
    (Entitled user extensions world.scope media → media.id ∈ world.held ∨
      media.id ∈ session.mediaIds.drop offset ∧
        ∀ since ∈ session.previousSyncAt, Moved device world.store media.id since) ∧
    (¬Entitled user extensions world.scope media → media.id ∈ world.held →
      ∃ since ∈ session.previousSyncAt, Moved device world.store media.id since)

/-- After a session: a book that has not moved since it began is where the scope puts it. -/
def Settled (world : ScopeWorld) (session : SyncSession) : Prop :=
  ∀ media ∈ world.store.media, media.deletedAt = none →
    ¬Moved device world.store media.id session.createdAt →
    (media.id ∈ world.held ↔ Entitled user extensions world.scope media)

/-- What a token says about the device. -/
def Reached (world : ScopeWorld) (session : SyncSession) : SyncToken → Prop
  | .incompleteV1 _ offset => Pending user extensions device world session offset
  | .completedV1 _ => Settled user extensions device world session

/-- The scope a request was bound to, for books that have not moved since. -/
def SameSides (world : ScopeWorld) (flight : Inflight) : Prop :=
  ∀ media ∈ world.store.media, media.deletedAt = none →
    ¬Moved device world.store media.id flight.session.createdAt →
    (bindDevice user flight.scope).seesLibrary media.libraryId =
      (bindDevice user world.scope).seesLibrary media.libraryId

/-- Deltas say which side a book is on, the token says what the device holds. -/
structure ScopeFollowed (world : ScopeWorld) : Prop where
  distinct : (world.store.media.map Media.id).Nodup
  known : ∀ media ∈ world.store.media, media.libraryId ∈ libraries
  sides : ∀ media ∈ world.store.media, media.deletedAt = none →
    ∀ delta ∈ world.store.deltasOf (some device), delta.mediaId = media.id →
      delta.removed = !(bindDevice user world.scope).seesLibrary media.libraryId
  recorded : ∀ delta ∈ world.store.deltasOf (some device), delta.createdAt ≤ world.scopedAt
  past : world.scopedAt ≤ world.clock
  untouched : world.token = none → world.held = []
  token : ∀ token ∈ world.token, ∃ session, world.store.find token.syncId = some session ∧
    session.createdAt ≤ world.clock ∧ Reached user extensions device world session token
  flight : ∀ flight ∈ world.inflight, flight.deviceId = some device ∧
    world.store.find flight.session.id = some flight.session ∧
    flight.session.createdAt ≤ world.clock ∧
    Pending user extensions device world flight.session flight.offset ∧
    SameSides user device world flight

/-- A device without a token holds nothing; else its token completed a stored session. -/
inductive Acknowledged (world : ScopeWorld) : Option Int → Prop where
  | none (untouched : world.token = none) (empty : world.held = []) : Acknowledged world none
  | some (syncId : String) (session : SyncSession) (held : world.token = some (.completedV1 syncId))
      (found : world.store.find syncId = some session)
      (settled : Settled user extensions device world session) :
      Acknowledged world (some session.createdAt)

/-- A book that has not moved since `time` did not move between the two worlds. -/
structure Kept (world next : ScopeWorld) (time : Int) (media : Media) : Prop where
  unmoved : ¬Moved device world.store media.id time
  side : (bindDevice user next.scope).seesLibrary media.libraryId =
    (bindDevice user world.scope).seesLibrary media.libraryId

/-- Books that have not moved since `time` are as they were, the device too. -/
structure Quiet (world next : ScopeWorld) (time : Int) : Prop where
  media : next.store.media = world.store.media
  held : next.held = world.held
  kept : ∀ media ∈ world.store.media, media.deletedAt = none →
    ¬Moved device next.store media.id time → Kept user device world next time media

/-- The device only holds books its user may see. -/
def Owned (world : ScopeWorld) : Prop :=
  ∀ id ∈ world.held, ∃ media ∈ world.store.media, media.id = id ∧
    media.libraryId ∉ user.excludedLibraries ∧ user.admits media = true ∧
    media.extension ∈ extensions

variable {libraries user extensions device}

theorem Kept.entitled {time : Int} (kept : Kept user device world next time media) :
    Entitled user extensions next.scope media ↔ Entitled user extensions world.scope media := by
  unfold Entitled
  rw [sees_bindDevice, sees_bindDevice, kept.side]

theorem Quiet.settled (quiet : Quiet user device world next session.createdAt)
    (settled : Settled user extensions device world session) :
    Settled user extensions device next session := by
  intro media stored live unmoved
  rw [quiet.media] at stored
  have kept := quiet.kept media stored live unmoved
  rw [quiet.held, kept.entitled]
  exact settled media stored live kept.unmoved

theorem Quiet.pending {offset : Nat} (quiet : Quiet user device world next session.createdAt)
    (still : ∀ id since, Moved device world.store id since → Moved device next.store id since)
    (pending : Pending user extensions device world session offset) :
    Pending user extensions device next session offset := by
  intro media stored live unmoved
  rw [quiet.media] at stored
  have kept := quiet.kept media stored live unmoved
  obtain ⟨coming, going⟩ := pending media stored live kept.unmoved
  rw [quiet.held, kept.entitled]
  refine ⟨fun entitled => ?_, fun unentitled holds => ?_⟩
  · rcases coming entitled with holds | ⟨listed, moved⟩
    · exact .inl holds
    · exact .inr ⟨listed, fun since given => still _ _ (moved since given)⟩
  · obtain ⟨since, given, moved⟩ := going unentitled holds
    exact ⟨since, given, still _ _ moved⟩

theorem Quiet.sameSides {flight : Inflight}
    (quiet : Quiet user device world next flight.session.createdAt)
    (same : SameSides user device world flight) : SameSides user device next flight := by
  intro media stored live unmoved
  rw [quiet.media] at stored
  have kept := quiet.kept media stored live unmoved
  rw [kept.side]
  exact same media stored live kept.unmoved

section SetScope

variable [Host] {scope : LibraryScope}

theorem setLibraryScope_ok {previous : LibraryScope} {before : KoboStore}
    (accepted : setLibraryScope before libraries user device previous now scope =
      .ok (store, scope)) :
    store = recordEntitlementDeltas before device now
      (.between previous scope (visibleLibraryIds libraries user)) := by
  unfold setLibraryScope at accepted
  simp only at accepted
  split at accepted
  · cases accepted
  · simp only [Except.ok.injEq, Prod.mk.injEq, and_true] at accepted
    exact accepted.symm

/-- A scope that stays moves nothing. -/
theorem between_self (scope : LibraryScope) (ownerLibraries : List String) :
    (ScopeTransition.between scope scope ownerLibraries).entered = [] ∧
      (ScopeTransition.between scope scope ownerLibraries).left = [] := by
  have nothing : (resolveScope scope ownerLibraries).filter
      (· ∉ resolveScope scope ownerLibraries) = [] := by simp
  have empty : Host.scan ([] : List String) = [] := perm_nil.mp (Host.scan_perm [])
  simp only [ScopeTransition.between, nothing, empty, and_self]

theorem ScopeFollowed.setScope (followed : ScopeFollowed libraries user extensions device world)
    (later : world.clock < now)
    (accepted : setLibraryScope world.store libraries user device world.scope now scope =
      .ok (store, scope)) :
    ScopeFollowed libraries user extensions device
      { world with
        store
        scope
        clock := now
        scopedAt := if scope = world.scope then world.scopedAt else now } := by
  obtain rfl := setLibraryScope_ok accepted
  have past := followed.past
  let transition := ScopeTransition.between world.scope scope (visibleLibraryIds libraries user)
  obtain ⟨media, sessions⟩ := recordEntitlementDeltas_rows world.store device now transition
  have book := fun (row : Media) (stored : row ∈ world.store.media) (live : row.deletedAt = none) =>
    recordEntitlementDeltas_book user device world.scope scope now followed.distinct stored live
      (followed.known row stored)
  have added : ∀ delta ∈ (recordEntitlementDeltas world.store device now transition).deltasOf
      (some device), delta ∈ world.store.deltasOf (some device) ∨ delta.createdAt = now ∧
        ¬(transition.entered = [] ∧ transition.left = []) := by
    intro delta member
    obtain ⟨stored, mine⟩ := mem_deltasOf.mp member
    exact (mem_recordEntitlementDeltas stored).imp_left fun old => mem_deltasOf.mpr ⟨old, mine⟩
  have keeps := fun (delta : EntitlementDelta)
      (recorded : delta ∈ world.store.deltasOf (some device)) =>
    recordEntitlementDeltas_keeps now transition recorded
  generalize recordEntitlementDeltas world.store device now transition = store
    at media sessions book added keeps
  have find : ∀ syncId, store.find syncId = world.store.find syncId := by
    intro syncId
    rw [KoboStore.find, sessions, KoboStore.find]
  have quiet : ∀ time ≤ world.clock, Quiet user device world { world with store, scope } time := by
    intro time old
    refine ⟨media, rfl, fun row stored live unmoved => ?_⟩
    rcases book row stored live with ⟨same, deltas⟩ | ⟨-, only, delta, recorded, mine⟩
    · refine ⟨fun moved => unmoved ?_, same.symm⟩
      obtain ⟨delta, recorded, mine, inside⟩ := moved
      exact ⟨delta, (deltas delta mine).mpr recorded, mine, inside⟩
    · have new := only delta recorded mine
      exact absurd ⟨delta, recorded, mine, by rw [new]; simp only; omega⟩ unmoved
  have still : ∀ id since, Moved device world.store id since → Moved device store id since := by
    rintro id since ⟨delta, recorded, rfl, inside⟩
    have before := followed.recorded delta recorded
    obtain ⟨row, kept, mine, rfl | new⟩ := keeps delta recorded
    · exact ⟨row, kept, mine, inside⟩
    · exact ⟨row, kept, mine, by omega⟩
  refine ⟨?_, ?_, ?_, ?_, ?_, followed.untouched, ?_, ?_⟩
  · rw [media]
    exact followed.distinct
  · rw [media]
    exact followed.known
  · intro row stored live delta recorded mine
    rw [media] at stored
    rcases book row stored live with ⟨same, deltas⟩ | ⟨-, only, -⟩
    · rw [followed.sides row stored live delta ((deltas delta mine).mp recorded) mine, same]
    · rw [only delta recorded mine]
  · intro delta recorded
    simp only
    rcases added delta recorded with old | ⟨new, moves⟩
    · have before := followed.recorded delta old
      split <;> omega
    rw [if_neg]
    · exact new.le
    · rintro rfl
      exact moves (between_self _ _)
  · simp only
    split <;> omega
  · intro token held
    obtain ⟨session, stored, old, reached⟩ := followed.token token held
    refine ⟨session, (find _).trans stored, by simp only; omega, ?_⟩
    cases token with
    | incompleteV1 syncId offset => exact (quiet _ old).pending still reached
    | completedV1 syncId => exact (quiet _ old).settled reached
  · intro flight serving
    obtain ⟨named, stored, old, pending, same⟩ := followed.flight flight serving
    exact ⟨named, (find _).trans stored, by simp only; omega,
      (quiet _ old).pending still pending, (quiet _ old).sameSides same⟩

end SetScope

/-- Time passing alone keeps everything. -/
theorem ScopeFollowed.tick (followed : ScopeFollowed libraries user extensions device world)
    (later : world.clock < now) :
    ScopeFollowed libraries user extensions device { world with clock := now } where
  __ := followed
  past := followed.past.trans later.le
  token token held := by
    obtain ⟨session, stored, old, reached⟩ := followed.token token held
    refine ⟨session, stored, old.trans later.le, ?_⟩
    cases token with
    | incompleteV1 syncId offset | completedV1 syncId => exact reached
  flight flight serving := by
    obtain ⟨named, stored, old, pending, same⟩ := followed.flight flight serving
    exact ⟨named, stored, old.trans later.le, pending, same⟩

section Ask

variable [Host] {since : Option Int}

variable (followed : ScopeFollowed libraries user extensions device world)
include followed

omit [Host] in
theorem ScopeFollowed.acknowledged (served : world.store.serve world.token = .fresh since) :
    Acknowledged user extensions device world since := by
  obtain ⟨start, completed⟩ := serve_fresh served
  cases here : world.token with
  | none =>
    rw [here] at start
    subst start
    exact .none here (followed.untouched here)
  | some token =>
    obtain ⟨session, found, -, reached⟩ := followed.token token here
    have done := completed token here (by simp [found])
    rw [here, Option.bind_some, found] at start
    subst start
    rw [done] at reached here
    exact .some token.syncId session here found reached

omit [Host] in
theorem ScopeFollowed.pendingBegun
    (begun : BegunFrom (some device) world.store store session since now)
    (all : since = none → ∀ media ∈ world.store.media,
      (bindDevice user world.scope).sees media = true → media.extension ∈ extensions →
      media.id ∈ session.mediaIds) (acknowledged : Acknowledged user extensions device world since)
    (inflight : Option Inflight) :
    Pending user extensions device
      { world with clock := now, store, inflight } session 0 := by
  intro media stored live _
  rw [begun.media] at stored
  rw [begun.previous, drop_zero]
  cases acknowledged with
  | none untouched empty =>
    refine ⟨fun entitled => .inr ⟨all rfl media stored entitled.1 entitled.2, by simp⟩, ?_⟩
    intro _ holds
    simp [empty] at holds
  | some syncId prior held found settled =>
    have unmoved : ¬Moved device store media.id prior.createdAt →
        ¬Moved device world.store media.id prior.createdAt := by
      rintro still ⟨delta, recorded, mine, inside⟩
      exact still ⟨delta, (begun.deltas delta).mpr ⟨recorded, _, rfl, inside⟩, mine, inside⟩
    by_cases moved : Moved device store media.id prior.createdAt
    · refine ⟨fun entitled => .inr ⟨?_, by simpa using moved⟩, fun _ _ => ⟨_, rfl, moved⟩⟩
      obtain ⟨delta, recorded, mine, inside⟩ := moved
      have old := ((begun.deltas delta).mp recorded).1
      have side := followed.sides media stored live delta old mine
      rw [(sees_bindDevice.mp entitled.1).1] at side
      rw [← mine]
      exact begun.entered _ rfl delta old side inside
    · have correct := settled media stored live (unmoved moved)
      exact ⟨fun entitled => .inl (correct.mpr entitled),
        fun unentitled holds => absurd (correct.mp holds) unentitled⟩

theorem ScopeFollowed.ask
    (later : world.clock < now) (fresh : ∀ session ∈ world.store.sessions, session.id ≠ id) :
    ScopeFollowed libraries user extensions device
      (world.ask user extensions (some device) now id) := by
  unfold ScopeWorld.ask KoboStore.openSession
  cases served : world.store.serve world.token with
  | resume session offset =>
    obtain ⟨syncId, held, found⟩ := serve_resume served
    obtain ⟨other, stored, old, reached⟩ := followed.token _ held
    obtain rfl := Option.mem_unique stored found
    refine { followed.tick later with flight := ?_ }
    rintro flight ⟨⟩
    exact ⟨rfl, (find_key found).symm ▸ found, old.trans later.le, reached, fun _ _ _ _ => rfl⟩
  | fresh since =>
    have acknowledged := followed.acknowledged served
    obtain ⟨begun, kept, all⟩ := beginNewSync_spec world.store (bindDevice user world.scope)
      (some device) extensions (world.token.map SyncToken.syncId).toList now since fresh
    have past := followed.past
    refine ⟨?_, ?_, ?_, ?_, past.trans later.le, followed.untouched, ?_, ?_⟩
    · rw [begun.media]
      exact followed.distinct
    · rw [begun.media]
      exact followed.known
    · intro media stored live delta recorded mine
      rw [begun.media] at stored
      exact followed.sides media stored live delta ((begun.deltas delta).mp recorded).1 mine
    · intro delta recorded
      exact followed.recorded delta ((begun.deltas delta).mp recorded).1
    · intro token held
      obtain ⟨session, found, old, reached⟩ := followed.token token held
      refine ⟨session, kept _ (by simp [show world.token = some token from held]) _ found,
        old.trans later.le, ?_⟩
      cases acknowledged with
      | none untouched => simp [untouched] at held
      | some syncId prior completed stored settled =>
        obtain rfl := Option.mem_unique completed held
        obtain rfl := Option.mem_unique stored found
        refine Quiet.settled ⟨begun.media, rfl, fun media known live unmoved => ⟨?_, rfl⟩⟩ settled
        rintro ⟨delta, recorded, mine, inside⟩
        exact unmoved
          ⟨delta, (begun.deltas delta).mpr ⟨recorded, _, rfl, inside⟩, mine, inside⟩
    · rintro flight ⟨⟩
      exact ⟨rfl, begun.found, begun.createdAt.le,
        followed.pendingBegun begun all acknowledged _, fun _ _ _ _ => rfl⟩

end Ask

section Deliver

/-- What is left of a session is on the page or after it. -/
theorem mem_page_or_rest (session : SyncSession) (offset limit : Nat)
    (listed : id ∈ session.mediaIds.drop offset) :
    id ∈ (SyncPage.new session offset limit).mediaIds ∨
      (SyncPage.new session offset limit).shouldContinue = true ∧
        id ∈ session.mediaIds.drop (min (offset + limit) session.mediaIds.length) := by
  rw [← SyncPage.mediaIds_new session offset limit] at listed
  rcases mem_append.mp listed with here | rest
  · exact .inl here
  right
  refine ⟨?_, rest⟩
  have more : min (offset + limit) session.mediaIds.length < session.mediaIds.length := by
    by_contra done
    rw [drop_eq_nil_of_le (not_lt.mp done)] at rest
    simp at rest
  simp [SyncPage.new, more]

variable {flight : Inflight} {media : Media}

variable (followed : ScopeFollowed libraries user extensions device world)
include followed

section Page

variable (stored : media ∈ world.store.media) (live : media.deletedAt = none)
include stored live

/-- A page adds only what the device is to hold. -/
theorem ScopeFollowed.entitled_of_adds (same : SameSides user device world flight)
    (unmoved : ¬Moved device world.store media.id flight.session.createdAt)
    (adds : page.Adds world.store (bindDevice user flight.scope) (some device) extensions
      media.id) :
    Entitled user extensions world.scope media := by
  obtain ⟨other, otherStored, mine, sees, covered, -⟩ := adds
  obtain rfl := inj_on_of_nodup_map followed.distinct otherStored stored mine
  rw [sees_bindDevice, same other stored live unmoved, ← sees_bindDevice] at sees
  exact ⟨sees, covered⟩

/-- A page adds what the device is to hold and the session has it bring. -/
theorem ScopeFollowed.adds_of_entitled (same : SameSides user device world flight)
    (unmoved : ¬Moved device world.store media.id flight.session.createdAt)
    (entitled : Entitled user extensions world.scope media) (listed : media.id ∈ page.mediaIds)
    (moved : ∀ since ∈ page.previousSyncAt, Moved device world.store media.id since) :
    page.Adds world.store (bindDevice user flight.scope) (some device) extensions
      media.id := by
  obtain ⟨sees, covered⟩ := entitled
  have side := (sees_bindDevice.mp sees).1
  rw [sees_bindDevice, ← same media stored live unmoved, ← sees_bindDevice] at sees
  refine ⟨media, stored, rfl, sees, covered, listed, ?_⟩
  cases window : page.previousSyncAt with
  | none => simp
  | some since =>
    obtain ⟨delta, recorded, mine, inside⟩ := moved since window
    have entered := followed.sides media stored live delta recorded mine
    rw [side] at entered
    exact .inr ⟨since, rfl, delta, recorded, mine, entered, inside⟩

/-- A page drops nothing the device is to hold. -/
theorem ScopeFollowed.unentitled_of_drops
    (drops : page.Drops world.store (bindDevice user flight.scope) (some device) extensions
      media.id) :
    ¬Entitled user extensions world.scope media := by
  obtain ⟨-, -, since, -, delta, recorded, mine, removed, -⟩ := drops
  have side := followed.sides media stored live delta recorded mine
  rw [removed] at side
  rintro ⟨sees, -⟩
  simp [(sees_bindDevice.mp sees).1] at side

/-- The last page drops what left in the window. -/
theorem ScopeFollowed.drops_of_unentitled
    (unentitled : ¬Entitled user extensions world.scope media) (holds : media.id ∈ world.held)
    (last : page.shouldContinue = false)
    (moved : ∃ since ∈ page.previousSyncAt, Moved device world.store media.id since)
    (owned : Owned user extensions world) :
    page.Drops world.store (bindDevice user flight.scope) (some device) extensions
      media.id := by
  obtain ⟨other, otherStored, mine, visible, admitted, covered⟩ := owned media.id holds
  obtain rfl := inj_on_of_nodup_map followed.distinct otherStored stored mine
  obtain ⟨since, window, delta, recorded, named, inside⟩ := moved
  have side := followed.sides other stored live delta recorded named
  have outside : (bindDevice user world.scope).seesLibrary other.libraryId = false := by
    by_contra seen
    rw [Bool.not_eq_false] at seen
    exact unentitled ⟨sees_bindDevice.mpr ⟨seen, admitted⟩, covered⟩
  rw [outside] at side
  exact ⟨last, ⟨other, stored, rfl, sees_inherit.mpr ⟨visible, admitted⟩, covered⟩,
    since, window, delta, recorded, named, side, inside⟩

end Page

theorem ScopeFollowed.deliver [Host] (owned : Owned user extensions world) (limit : Nat)
    (koboApiBaseUrl : String) (later : world.clock < now)
    (serving : world.inflight = some flight) :
    ScopeFollowed libraries user extensions device
      (world.deliver user extensions now flight limit koboApiBaseUrl) := by
  obtain ⟨named, found, old, pending, same⟩ := followed.flight flight serving
  have ticked := followed.tick later
  have window : (SyncPage.new flight.session flight.offset limit).previousSyncAt =
      flight.session.previousSyncAt := rfl
  have rest := fun id (listed : id ∈ flight.session.mediaIds.drop flight.offset) =>
    mem_page_or_rest flight.session flight.offset limit listed
  have token := SyncPage.token_new flight.session flight.offset limit
  have syncId := SyncPage.syncId_new flight.session flight.offset limit
  unfold ScopeWorld.deliver
  simp only [named]
  generalize SyncPage.new flight.session flight.offset limit = page at window rest token syncId ⊢
  have after := fun id => @mem_applySyncItems world.store page id
    (bindDevice user flight.scope) extensions koboApiBaseUrl (some device) _ world.held
  generalize (world.store.syncItems (bindDevice user flight.scope) (some device) extensions page
    koboApiBaseUrl).foldl applyItem world.held = held at after ⊢
  have left : ∀ media ∈ world.store.media, media.deletedAt = none →
      ¬Moved device world.store media.id flight.session.createdAt →
      (Entitled user extensions world.scope media → media.id ∈ held ∨
        page.shouldContinue = true ∧ media.id ∈ flight.session.mediaIds.drop
          (min (flight.offset + limit) flight.session.mediaIds.length) ∧
          ∀ since ∈ flight.session.previousSyncAt, Moved device world.store media.id since) ∧
      (¬Entitled user extensions world.scope media → media.id ∈ held →
        page.shouldContinue = true ∧
          ∃ since ∈ flight.session.previousSyncAt, Moved device world.store media.id since) := by
    intro media stored live unmoved
    obtain ⟨coming, going⟩ := pending media stored live unmoved
    refine ⟨fun entitled => ?_, fun unentitled holds => ?_⟩
    · have stays : ¬page.Drops world.store (bindDevice user flight.scope) (some device)
          extensions media.id :=
        fun drops => followed.unentitled_of_drops stored live drops entitled
      rcases coming entitled with holds | ⟨listed, moved⟩
      · exact .inl ((after _).mpr ⟨.inl holds, stays⟩)
      rcases rest media.id listed with here | ⟨more, listed⟩
      · have adds := followed.adds_of_entitled stored live same unmoved entitled here
          (window ▸ moved)
        exact .inl ((after _).mpr ⟨.inr adds, stays⟩)
      · exact .inr ⟨more, listed, moved⟩
    · obtain ⟨holds | adds, stays⟩ := (after _).mp holds
      · have moved := going unentitled holds
        refine ⟨?_, moved⟩
        by_contra last
        rw [Bool.not_eq_true] at last
        exact stays (followed.drops_of_unentitled stored live unentitled holds last
          (window ▸ moved) owned)
      · exact absurd (followed.entitled_of_adds stored live same unmoved adds) unentitled
  refine { ticked with untouched := nofun, token := ?_, flight := nofun }
  rintro held ⟨⟩
  refine ⟨flight.session, syncId ▸ found, old.trans later.le, ?_⟩
  cases more : page.shouldContinue with
  | true =>
    rw [token, if_pos more]
    intro media stored live unmoved
    obtain ⟨coming, going⟩ := left media stored live unmoved
    exact ⟨fun entitled => (coming entitled).imp id And.right,
      fun unentitled holds => (going unentitled holds).2⟩
  | false =>
    rw [token, more]
    intro media stored live unmoved
    obtain ⟨coming, going⟩ := left media stored live unmoved
    simp only [more, Bool.false_eq_true, false_and, or_false] at coming going
    exact ⟨fun holds => by_contra fun unentitled => going unentitled holds, coming⟩

end Deliver

end Invariant

section Main

variable [Host] (libraries : List String) (user : AuthUser) (extensions : List String)
  (device : String) {world next : ScopeWorld} {names : Option String → Prop}

variable {libraries user extensions device} in
/-- What one step hands the device, its user may see. -/
theorem Owned.step (owned : Owned user extensions world)
    (transition : ScopeStep libraries user extensions device names world next) :
    Owned user extensions next := by
  cases transition with
  | setScope later accepted =>
    obtain rfl := setLibraryScope_ok accepted
    unfold Owned
    rw [(recordEntitlementDeltas_rows ..).1]
    exact owned
  | @ask now deviceId named id later idle absent =>
    have media : (world.ask user extensions deviceId now id).store.media = world.store.media := by
      unfold ScopeWorld.ask KoboStore.openSession
      cases world.store.serve world.token <;> rfl
    unfold Owned
    rw [media]
    exact owned
  | deliver limit koboApiBaseUrl later serving =>
    intro id holds
    obtain ⟨holds | adds, -⟩ := mem_applySyncItems.mp holds
    · exact owned id holds
    · obtain ⟨media, stored, mine, sees, covered, -⟩ := adds
      obtain ⟨library, admitted⟩ := sees_bindDevice.mp sees
      exact ⟨media, stored, mine, (seesLibrary_bindDevice.mp library).1, admitted, covered⟩
  | lose later => exact owned

theorem owned_of_reachable
    (reachable : (scopeSystem libraries user extensions device names).Reachable world) :
    Owned user extensions world := by
  refine reachable.invariant ?_ fun _ _ => Owned.step
  intro world fresh
  simp [Owned, fresh.empty]

/-- As long as every request names the device by its id. -/
theorem followed_of_reachable
    (reachable : (scopeSystem libraries user extensions device (· = some device)).Reachable world) :
    ScopeFollowed libraries user extensions device world := by
  let Inv := fun world : ScopeWorld =>
    ScopeFollowed libraries user extensions device world ∧ Owned user extensions world
  suffices both : Inv world from both.1
  refine reachable.invariant ?_ ?_
  · intro world fresh
    refine ⟨?_, by simp [Owned, fresh.empty]⟩
    exact
      { distinct := fresh.distinct
        known := fresh.known
        sides := by simp [fresh.unmoved]
        recorded := by simp [fresh.unmoved]
        past := fresh.past
        untouched := fun _ => fresh.empty
        token := by simp [fresh.untouched]
        flight := by simp [fresh.idle] }
  · rintro world next ⟨followed, owned⟩ transition
    refine ⟨?_, owned.step transition⟩
    cases transition with
    | setScope later accepted => exact followed.setScope later accepted
    | ask deviceId named id later idle absent => exact named ▸ followed.ask later absent
    | deliver limit koboApiBaseUrl later serving =>
      exact followed.deliver owned limit koboApiBaseUrl later serving
    | lose later => exact { followed.tick later with flight := nofun }

/-- In every run, and at any time in it, the device only holds books its user may see,
whatever device its requests name. -/
theorem held_books_allowed
    (reachable : (scopeSystem libraries user extensions device names).Reachable world) :
    ∀ id ∈ world.held, ∃ media ∈ world.store.media, media.id = id ∧
      media.libraryId ∉ user.excludedLibraries ∧ user.admits media = true ∧
      media.extension ∈ extensions :=
  owned_of_reachable libraries user extensions device reachable

/-- In every run over books none of which is in the trash, whose requests name the device
by the id under which its scope changes are recorded: once a session is completed, and
until the scope changes, the device holds exactly the books of the session's extensions in
the libraries the scope resolves to that the user's age limit admits. -/
theorem entitlements_follow_scope
    (reachable : (scopeSystem libraries user extensions device (· = some device)).Reachable world)
    (live : ∀ media ∈ world.store.media, media.deletedAt = none) {syncId : String}
    {session : SyncSession} (completed : world.token = some (.completedV1 syncId))
    (found : world.store.find syncId = some session)
    (unchanged : world.scopedAt < session.createdAt) (id : String) :
    id ∈ world.held ↔ ∃ media ∈ world.store.media, media.id = id ∧
      media.extension ∈ extensions ∧ user.admits media = true ∧
      media.libraryId ∈ resolveScope world.scope (visibleLibraryIds libraries user) := by
  have followed := followed_of_reachable libraries user extensions device reachable
  obtain ⟨other, stored, -, settled⟩ := followed.token _ completed
  obtain rfl := Option.mem_unique stored found
  have correct : ∀ media ∈ world.store.media,
      (media.id ∈ world.held ↔ Entitled user extensions world.scope media) := by
    intro media member
    refine settled media member (live media member) ?_
    rintro ⟨delta, recorded, -, inside⟩
    have before := followed.recorded delta recorded
    omega
  constructor
  · intro holds
    obtain ⟨media, member, rfl, -⟩ :=
      owned_of_reachable libraries user extensions device reachable id holds
    obtain ⟨sees, covered⟩ := (correct media member).mp holds
    obtain ⟨library, admitted⟩ := sees_bindDevice.mp sees
    exact ⟨media, member, rfl, covered, admitted,
      (mem_resolveScope (followed.known media member)).mpr library⟩
  · rintro ⟨media, member, rfl, covered, admitted, library⟩
    refine (correct media member).mpr ⟨sees_bindDevice.mpr ⟨?_, admitted⟩, covered⟩
    exact (mem_resolveScope (followed.known media member)).mp library

end Main

section Sample

local instance entitlementsHost : Host := Host.sample

/-- A user without restrictions, through a device with a scope of its own. -/
def sampleOwner : AuthUser := ⟨[], none, none⟩

/-- A device that inherits, and one book of the only library. -/
def sampleShelved (deletedAt : Option Int) : ScopeWorld :=
  { store := ⟨[⟨"novel", "epub", "library", none, none, 0, none, deletedAt⟩], [], [], []⟩
    scope := .inherit
    token := none
    inflight := none
    held := []
    clock := 0
    scopedAt := 0 }

theorem sampleShelved_fresh (deletedAt : Option Int) :
    (sampleShelved deletedAt).Fresh ["library"] "device" :=
  ⟨rfl, rfl, rfl, rfl, by simp [sampleShelved], by simp [sampleShelved], le_rfl⟩

theorem held_books_allowed_sample : ∃ world : ScopeWorld, "novel" ∈ world.held ∧
    ∃ media ∈ world.store.media, media.id = "novel" ∧ sampleOwner.admits media = true := by
  have start : (scopeSystem ["library"] sampleOwner ["epub"] "device" (· = none)).Reachable
      (sampleShelved none) := .initial (sampleShelved_fresh _)
  have asked := start.step (.ask none (by rfl) "first" (by decide : (0 : Int) < 1) rfl nofun)
  have synced := asked.step (.deliver 10 "" (by decide : (1 : Int) < 2) rfl)
  obtain ⟨media, stored, named, -, allowed, -⟩ :=
    held_books_allowed ["library"] sampleOwner ["epub"] "device" synced "novel" (by decide)
  exact ⟨_, by decide, media, stored, named, allowed⟩

/-- The device of the sample has synced, and then lost its library. -/
def sampleNarrowed (deletedAt : Option Int) (deviceId : Option String) : ScopeWorld :=
  let store : KoboStore := { (sampleShelved deletedAt).store with
    sessions := [⟨"first", ["novel"], 1, none, deviceId.getD ""⟩] }
  { store := recordEntitlementDeltas store "device" 3
      (.between .inherit (.only []) (visibleLibraryIds ["library"] sampleOwner))
    scope := .only []
    token := some (.completedV1 "first")
    inflight := none
    held := ["novel"]
    clock := 3
    scopedAt := 3 }

/-- It asks again, and as always names `deviceId`. -/
theorem sampleNarrowed_asks (deletedAt : Option Int) (deviceId : Option String) :
    (scopeSystem ["library"] sampleOwner ["epub"] "device" (· = deviceId)).Reachable
      ((sampleNarrowed deletedAt deviceId).ask sampleOwner ["epub"] deviceId 4 "second") := by
  have start : (scopeSystem ["library"] sampleOwner ["epub"] "device" (· = deviceId)).Reachable
      (sampleShelved deletedAt) := .initial (sampleShelved_fresh _)
  have asked := start.step (.ask deviceId (by rfl) "first" (by decide : (0 : Int) < 1) rfl nofun)
  have synced := asked.step (.deliver 10 "" (by decide : (1 : Int) < 2) rfl)
  have narrowed := synced.step (.setScope (by decide : (2 : Int) < 3)
    (show setLibraryScope _ _ _ _ _ _ (.only []) = _ from rfl))
  refine System.Reachable.step (s := sampleNarrowed deletedAt deviceId) narrowed
    (.ask deviceId (by rfl) "second" (by decide : (3 : Int) < 4) rfl ?_)
  unfold sampleNarrowed
  rw [(recordEntitlementDeltas_rows ..).2]
  simp

/-- The device holds the book after a session completed under a scope without libraries. -/
def Outlives (deletedAt : Option Int) (deviceId : Option String) : Prop :=
  ∃ world, (scopeSystem ["library"] sampleOwner ["epub"] "device" (· = deviceId)).Reachable world ∧
    world.store.media = (sampleShelved deletedAt).store.media ∧
    (∃ session, world.token = some (.completedV1 "second") ∧
      world.store.find "second" = some session ∧ world.scopedAt < session.createdAt) ∧
    world.held = ["novel"] ∧
    resolveScope world.scope (visibleLibraryIds ["library"] sampleOwner) = []

/-- A book in the trash is synced, but its leaving the scope is not recorded; and the
records of a device are not found by requests that name it otherwise, or not at all. The
device keeps the book after the next session. -/
theorem books_outlive_scope :
    Outlives (some 0) (some "device") ∧ Outlives none (some "N905") ∧ Outlives none none := by
  have trashed := (sampleNarrowed_asks (some 0) (some "device")).step
    (.deliver 10 "" (by decide : (4 : Int) < 5) rfl)
  have renamed := (sampleNarrowed_asks none (some "N905")).step
    (.deliver 10 "" (by decide : (4 : Int) < 5) rfl)
  have unnamed := (sampleNarrowed_asks none none).step
    (.deliver 10 "" (by decide : (4 : Int) < 5) rfl)
  exact ⟨⟨_, trashed, rfl, ⟨_, by decide, rfl, by decide⟩, by decide, by decide⟩,
    ⟨_, renamed, rfl, ⟨_, by decide, rfl, by decide⟩, by decide, by decide⟩,
    ⟨_, unnamed, rfl, ⟨_, by decide, rfl, by decide⟩, by decide, by decide⟩⟩

/-- The book is taken away by the session after the scope change. -/
theorem entitlements_follow_scope_sample :
    "novel" ∈ (sampleNarrowed none (some "device")).held ∧
      ∃ world, (scopeSystem ["library"] sampleOwner ["epub"] "device"
        (· = some "device")).Reachable world ∧ "novel" ∉ world.held := by
  have synced := (sampleNarrowed_asks none (some "device")).step
    (.deliver 10 "" (by decide : (4 : Int) < 5) rfl)
  refine ⟨by decide, _, synced, fun holds => ?_⟩
  obtain ⟨media, -, -, -, -, seen⟩ := (entitlements_follow_scope ["library"] sampleOwner ["epub"]
    "device" synced (by decide) rfl rfl (by decide) "novel").mp holds
  exact not_mem_nil seen

end Sample

end Coppice.Kobo
