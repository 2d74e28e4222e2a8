import Mathlib.Data.String.Basic
import Coppice.Models.Readium
import Coppice.Std.Table
import Coppice.Std.Text

/-!
# Kobo library sync

A device syncs in sessions, as in `kobo/src/sync.rs`: a session is begun with the
ids of the books to send, handed out in pages, and acknowledged by the token of its
last page. The next session looks only at what changed since the acknowledged one
was inserted. The tables are those of one user and their devices. A request may name
the device it comes from: the scope of that device's entries decides what it sees.
`media` rows come joined with what the queries read of their metadata and series.
-/

namespace Coppice.Kobo

open Coppice.Std Models

/-- A row of `media`, with the library of its series and the two age ratings. -/
structure Media where
  id : String
  extension : String
  libraryId : String
  ageRating : Option Int
  seriesAgeRating : Option Int
  createdAt : Int
  modifiedAt : Option Int
  deletedAt : Option Int
deriving DecidableEq, Repr

structure AgeRestriction where
  age : Int
  restrictOnUnset : Bool
deriving DecidableEq, Repr

/-- The user a request authenticates: the libraries they excluded, their age limit, and
the libraries the authenticating device is restricted to. -/
structure AuthUser where
  excludedLibraries : List String
  ageRestriction : Option AgeRestriction
  deviceLibraryScope : Option (List String)
deriving DecidableEq, Repr

/-- `get_age_restriction_filter`: a book's own rating decides, else its series'. -/
def AgeRestriction.admits (restriction : AgeRestriction) (media : Media) : Bool :=
  match media.ageRating, media.seriesAgeRating with
  | some rating, _ => rating ≤ restriction.age
  | none, some rating => rating ≤ restriction.age
  | none, none => !restriction.restrictOnUnset

namespace AuthUser

/-- `VisibilityScope::inherit`: the user's own visibility, ignoring the device. -/
def inherit (user : AuthUser) : AuthUser := { user with deviceLibraryScope := none }

/-- `VisibilityScope::library_condition`: exclusions and device scope, both. -/
def seesLibrary (user : AuthUser) (libraryId : String) : Bool :=
  libraryId ∉ user.excludedLibraries ∧ ∀ ids ∈ user.deviceLibraryScope, libraryId ∈ ids

/-- The age restriction of the user lets the book pass, if there is one. -/
def admits (user : AuthUser) (media : Media) : Bool :=
  (user.ageRestriction.map (·.admits media)).getD true

/-- `media::Entity::find_for_user`, on one row. -/
def sees (user : AuthUser) (media : Media) : Bool :=
  user.seesLibrary media.libraryId && user.admits media

end AuthUser

/-- A row of `reading_sessions`, as far as sync reads it. -/
structure ReadingSession where
  mediaId : String
  createdAt : Int
  updatedAt : Option Int
deriving DecidableEq, Repr

/-- A row of `device_entitlement_deltas`: the book left the scope of the device, or
entered it. -/
structure EntitlementDelta where
  deviceId : String
  mediaId : String
  removed : Bool
  createdAt : Int
deriving DecidableEq, Repr

/-- The unique key of a delta. -/
def EntitlementDelta.key (delta : EntitlementDelta) : String × String :=
  (delta.deviceId, delta.mediaId)

/-- A row of `kobo_sync_sessions`. -/
structure SyncSession where
  id : String
  mediaIds : List String
  createdAt : Int
  previousSyncAt : Option Int
  deviceId : String
deriving DecidableEq, Repr

/-- The opaque token a device hands back. -/
inductive SyncToken where
  | incompleteV1 (syncId : String) (nextOffset : Nat)
  | completedV1 (syncId : String)
deriving DecidableEq, Repr

def SyncToken.syncId : SyncToken → String
  | incompleteV1 syncId _ => syncId
  | completedV1 syncId => syncId

def SyncToken.new (syncId : String) (completed : Bool) (nextOffset : Nat) : SyncToken :=
  if completed then completedV1 syncId else incompleteV1 syncId nextOffset

/-- The tables sync reads and writes. -/
structure KoboStore where
  media : List Media
  readingSessions : List ReadingSession
  deltas : List EntitlementDelta
  sessions : List SyncSession
deriving DecidableEq, Repr

/-- `Vec::dedup`: of equal neighbours one is kept. -/
def dedup : List String → List String
  | [] => []
  | id :: rest =>
    match dedup rest with
    | [] => [id]
    | next :: kept => if id = next then next :: kept else id :: next :: kept

namespace KoboStore

/-- A session by its id. -/
def find (store : KoboStore) (syncId : String) : Option SyncSession :=
  lookup SyncSession.id store.sessions syncId

/-- Delete the sessions of the device that are no longer relevant. -/
def pruneSyncSessions (store : KoboStore) (deviceId : Option String) (keepSessions : List String) :
    KoboStore :=
  { store with
    sessions := store.sessions.filter fun session =>
      some session.deviceId ≠ deviceId ∨ session.id ∈ keepSessions }

/-- The recorded deltas of a device; a request that names none finds none. -/
def deltasOf (store : KoboStore) (deviceId : Option String) : List EntitlementDelta :=
  store.deltas.filter fun delta => some delta.deviceId = deviceId

section Queries

variable [Host]

/-- The books a session starts from: those created or modified since the previous
session was inserted, or all of them. -/
def changedMediaIds (store : KoboStore) (user : AuthUser) (extensions : List String)
    (previousSyncAt : Option Int) : List String :=
  (Host.scan (store.media.filter fun media =>
    user.sees media ∧ media.extension ∈ extensions ∧
      ∀ since ∈ previousSyncAt,
        since ≤ media.createdAt ∨ ∃ modified ∈ media.modifiedAt, since ≤ modified)).map Media.id

/-- The books whose reading sessions were written since. -/
def readingStateMediaIds (store : KoboStore) (previousSyncAt : Int) : List String :=
  (Host.scan (store.readingSessions.filter fun session =>
    previousSyncAt ≤ session.createdAt ∨
      ∃ updated ∈ session.updatedAt, previousSyncAt ≤ updated)).map ReadingSession.mediaId

/-- The books that entered the device's scope since. -/
def enteredScopeMediaIds (store : KoboStore) (deviceId : Option String) (previousSyncAt : Int) :
    List String :=
  (Host.scan ((store.deltasOf deviceId).filter fun delta =>
    !delta.removed ∧ previousSyncAt ≤ delta.createdAt)).map EntitlementDelta.mediaId

end Queries

/-- Drop the entitlement deltas of the device a sync no longer needs to carry. -/
def pruneEntitlementDeltas (store : KoboStore) (deviceId : Option String)
    (previousSyncAt : Option Int) : KoboStore :=
  { store with
    deltas := store.deltas.filter fun delta =>
      some delta.deviceId ≠ deviceId ∨ ∃ since ∈ previousSyncAt, since ≤ delta.createdAt }

/-- Insert the session, stamped with the current time. -/
def insertSession (store : KoboStore) (deviceId : Option String) (now : Int) (id : String)
    (mediaIds : List String) (previousSyncAt : Option Int) : KoboStore × SyncSession :=
  let session := ⟨id, mediaIds, now, previousSyncAt, deviceId.getD ""⟩
  ({ store with sessions := store.sessions ++ [session] }, session)

/-- Begin a session: gather its ids, prune the deltas, insert it. -/
def beginNewSync [Host] (store : KoboStore) (user : AuthUser) (deviceId : Option String)
    (extensions : List String) (now : Int) (id : String) (previousSyncAt : Option Int) :
    KoboStore × SyncSession :=
  let mediaIds := store.changedMediaIds user extensions previousSyncAt
  let mediaIds := match previousSyncAt with
    | none => mediaIds
    | some since =>
      dedup (orderBy (fun id => id) (mediaIds ++ store.readingStateMediaIds since ++
        store.enteredScopeMediaIds deviceId since))
  (store.pruneEntitlementDeltas deviceId previousSyncAt).insertSession deviceId now id mediaIds
    previousSyncAt

end KoboStore

/-- A page of library sync results. -/
structure SyncPage where
  previousSyncAt : Option Int
  mediaIds : List String
  shouldContinue : Bool
  syncToken : SyncToken
deriving DecidableEq, Repr

def SyncPage.new (session : SyncSession) (offset limit : Nat) : SyncPage :=
  let nextOffset := min (offset + limit) session.mediaIds.length
  { previousSyncAt := session.previousSyncAt
    mediaIds := (session.mediaIds.take nextOffset).drop (min offset session.mediaIds.length)
    shouldContinue := nextOffset < session.mediaIds.length
    syncToken := .new session.id (¬nextOffset < session.mediaIds.length) nextOffset }

/-- Which session a request is served from, and whether it has to be begun: without a
session to continue, one that follows the acknowledged session if there is one. -/
inductive Served where
  | resume (session : SyncSession) (offset : Nat)
  | fresh (previousSyncAt : Option Int)
deriving DecidableEq, Repr

namespace KoboStore

/-- The session a token continues, or the time the next one starts from. -/
def serve (store : KoboStore) (clientSyncToken : Option SyncToken) : Served :=
  let previous := clientSyncToken.bind fun token => store.find token.syncId
  match clientSyncToken, previous with
  | some (.incompleteV1 _ nextOffset), some session => .resume session nextOffset
  | _, previous => .fresh (previous.map SyncSession.createdAt)

/-- The session a request is served from, begun if need be, and the offset in it. -/
def openSession [Host] (store : KoboStore) (user : AuthUser) (deviceId : Option String)
    (extensions : List String) (now : Int) (id : String) (clientSyncToken : Option SyncToken) :
    KoboStore × SyncSession × Nat :=
  match store.serve clientSyncToken with
  | .resume session offset => (store, session, offset)
  | .fresh previousSyncAt =>
    let (store, session) :=
      (store.pruneSyncSessions deviceId (clientSyncToken.map SyncToken.syncId).toList).beginNewSync
        user deviceId extensions now id previousSyncAt
    (store, session, 0)

/-- Advance the device's sync session by one page. -/
def nextPage [Host] (store : KoboStore) (user : AuthUser) (deviceId : Option String)
    (extensions : List String) (now : Int) (id : String) (clientSyncToken : Option SyncToken)
    (limit : Nat) : KoboStore × SyncPage :=
  let (store, session, offset) :=
    store.openSession user deviceId extensions now id clientSyncToken
  (store, .new session offset limit)

end KoboStore

inductive Format where
  | epub3
  | kepub
deriving DecidableEq, Repr

/-- EPUBs are served as they are, anything else as a KEPUB. -/
def downloadFormat (extension : String) : Format :=
  if toAsciiLowercase extension = "epub" then .epub3 else .kepub

def bookDownloadUrl (koboApiBaseUrl mediaId : String) : String :=
  koboApiBaseUrl ++ "/v1/books/" ++ mediaId ++ "/file/epub"

/-- A book with the reading session that goes along with it. -/
structure SyncedBook where
  media : Media
  readingSession : Option ReadingSession
deriving DecidableEq, Repr

/-- What a page tells the device about books. -/
inductive SyncItem where
  | newEntitlement (book : SyncedBook) (bookUrl : String) (format : Format)
  | changedEntitlement (book : SyncedBook) (bookUrl : String) (format : Format) (isRemoved : Bool)
  | changedProductMetadata (book : SyncedBook) (bookUrl : String) (format : Format)
  | changedReadingState (mediaId : String) (session : ReadingSession)
deriving DecidableEq, Repr

namespace KoboStore

variable [Host]

/-- The books among `ids` that the user sees. -/
def findByIdsForUser (store : KoboStore) (user : AuthUser) (ids extensions : List String) :
    List SyncedBook :=
  (Host.scan (store.media.filter fun media =>
    user.sees media ∧ media.id ∈ ids ∧ media.extension ∈ extensions)).map fun media =>
      { media := media
        readingSession := maxByKey ReadingSession.createdAt
          (Host.scan (store.readingSessions.filter fun session => session.mediaId = media.id)) }

/-- The ids on a page that a library-scope widening made visible. -/
def enteredScopeIds (store : KoboStore) (deviceId : Option String) (page : SyncPage) :
    List String :=
  match page.previousSyncAt with
  | none => []
  | some since => (store.enteredScopeMediaIds deviceId since).filter (· ∈ page.mediaIds)

/-- What a page says about one of its books. -/
def bookItems (page : SyncPage) (enteredScope : List String) (koboApiBaseUrl : String)
    (book : SyncedBook) : List SyncItem :=
  let bookUrl := bookDownloadUrl koboApiBaseUrl book.media.id
  let format := downloadFormat book.media.extension
  if (∀ since ∈ page.previousSyncAt, since ≤ book.media.createdAt) ∨
      book.media.id ∈ enteredScope then
    [.newEntitlement book bookUrl format]
  else
    (if ∃ since ∈ page.previousSyncAt, ∃ modified ∈ book.media.modifiedAt, since ≤ modified then
      [.changedProductMetadata book bookUrl format] else []) ++
    match book.readingSession with
    | none => []
    | some session =>
      if ∃ since ∈ page.previousSyncAt, since ≤ session.updatedAt.getD session.createdAt then
        [.changedReadingState book.media.id session] else []

/-- A removal for every book that left the device's scope inside the window. -/
def removedEntitlements (store : KoboStore) (user : AuthUser) (deviceId : Option String)
    (extensions : List String) (page : SyncPage) (koboApiBaseUrl : String) : List SyncItem :=
  match page.previousSyncAt with
  | none => []
  | some since =>
    let removedIds := (Host.scan ((store.deltasOf deviceId).filter fun delta =>
      delta.removed ∧ since ≤ delta.createdAt)).map EntitlementDelta.mediaId
    (store.findByIdsForUser user.inherit removedIds extensions).map fun book =>
      .changedEntitlement book (bookDownloadUrl koboApiBaseUrl book.media.id)
        (downloadFormat book.media.extension) true

/-- The items of a page about books; removals ride on the last page of a session. -/
def syncItems (store : KoboStore) (user : AuthUser) (deviceId : Option String)
    (extensions : List String) (page : SyncPage) (koboApiBaseUrl : String) : List SyncItem :=
  (store.findByIdsForUser user page.mediaIds extensions).flatMap
      (bookItems page (store.enteredScopeIds deviceId page) koboApiBaseUrl) ++
    if page.shouldContinue then []
    else store.removedEntitlements user deviceId extensions page koboApiBaseUrl

end KoboStore

section Spec

variable {id syncId : String} {token : Option SyncToken} {session : SyncSession}
  {store : KoboStore} {user : AuthUser} {extensions : List String} {deviceId : Option String}

theorem mem_dedup {ids : List String} : id ∈ dedup ids ↔ id ∈ ids := by
  induction ids with
  | nil => rfl
  | cons first rest ih =>
    rw [List.mem_cons, ← ih, dedup]
    cases dedup rest with
    | nil => simp
    | cons next kept => by_cases same : first = next <;> simp [same]

theorem SyncPage.syncId_new (session : SyncSession) (offset limit : Nat) :
    (SyncPage.new session offset limit).syncToken.syncId = session.id := by
  unfold SyncPage.new SyncToken.new
  simp only
  split <;> rfl

/-- What is left of a session is the page and what is left after it. -/
theorem SyncPage.mediaIds_new (session : SyncSession) (offset limit : Nat) :
    (SyncPage.new session offset limit).mediaIds ++
      session.mediaIds.drop (min (offset + limit) session.mediaIds.length) =
        session.mediaIds.drop offset := by
  have start : session.mediaIds.drop (min offset session.mediaIds.length) =
      session.mediaIds.drop offset := by
    rcases Nat.le_total offset session.mediaIds.length with inside | past
    · rw [min_eq_left inside]
    · rw [min_eq_right past, List.drop_length, List.drop_eq_nil_of_le past]
  have within : min offset session.mediaIds.length ≤
      (session.mediaIds.take (min (offset + limit) session.mediaIds.length)).length := by
    rw [List.length_take]
    omega
  rw [← start, SyncPage.new, ← List.drop_append_of_le_length within, List.take_append_drop]

theorem SyncPage.token_new (session : SyncSession) (offset limit : Nat) :
    (SyncPage.new session offset limit).syncToken =
      if (SyncPage.new session offset limit).shouldContinue then
        .incompleteV1 session.id (min (offset + limit) session.mediaIds.length)
      else .completedV1 session.id := by
  unfold SyncPage.new SyncToken.new
  by_cases more : min (offset + limit) session.mediaIds.length < session.mediaIds.length
  · simp [more]
  · simp [more]

/-- A session is resumed by an incomplete token that names it. -/
theorem serve_resume {offset : Nat} (served : store.serve token = .resume session offset) :
    ∃ syncId, token = some (.incompleteV1 syncId offset) ∧ store.find syncId = some session := by
  unfold KoboStore.serve at served
  cases token with
  | none => simp at served
  | some held =>
    cases held with
    | completedV1 syncId => simp at served
    | incompleteV1 syncId next =>
      cases found : store.find syncId with
      | none => simp [SyncToken.syncId, found] at served
      | some stored =>
        simp only [Option.bind_some, SyncToken.syncId, found, Served.resume.injEq] at served
        obtain ⟨rfl, rfl⟩ := served
        exact ⟨syncId, rfl, found⟩

/-- A session begun anew starts from the stored session its token names, which that
token completed. -/
theorem serve_fresh {since : Option Int} (served : store.serve token = .fresh since) :
    since = (token.bind fun held => store.find held.syncId).map SyncSession.createdAt ∧
      ∀ held ∈ token, (store.find held.syncId).isSome = true →
        held = .completedV1 held.syncId := by
  unfold KoboStore.serve at served
  cases token with
  | none => simpa using served.symm
  | some held =>
    cases held with
    | completedV1 syncId => simpa [SyncToken.syncId] using served.symm
    | incompleteV1 syncId next =>
      cases found : store.find syncId with
      | none => simpa [SyncToken.syncId, found] using served.symm
      | some stored => simp [SyncToken.syncId, found] at served

theorem find_key (found : store.find syncId = some session) : session.id = syncId :=
  lookup_key found

theorem find_pruneSyncSessions {keep : List String} (kept : syncId ∈ keep) :
    (store.pruneSyncSessions deviceId keep).find syncId = store.find syncId := by
  unfold KoboStore.find KoboStore.pruneSyncSessions
  simp only [lookup_eq_head?, List.filter_filter]
  congr 1
  refine List.filter_congr fun session _ => ?_
  by_cases same : session.id = syncId
  · simp [same, kept]
  · simp [same]

variable [Host] {store : KoboStore}

theorem mem_scan {α : Type} {rows : List α} {row : α} : row ∈ Host.scan rows ↔ row ∈ rows :=
  (Host.scan_perm rows).mem_iff

namespace KoboStore

theorem mem_changedMediaIds {previousSyncAt : Option Int} :
    id ∈ store.changedMediaIds user extensions previousSyncAt ↔
      ∃ media ∈ store.media, media.id = id ∧ user.sees media = true ∧
        media.extension ∈ extensions ∧ ∀ since ∈ previousSyncAt,
          since ≤ media.createdAt ∨ ∃ modified ∈ media.modifiedAt, since ≤ modified := by
  unfold changedMediaIds
  simp only [List.mem_map, mem_scan, List.mem_filter, decide_eq_true_eq]
  constructor
  · rintro ⟨media, ⟨member, sees, covered, window⟩, rfl⟩
    exact ⟨media, member, rfl, sees, covered, window⟩
  · rintro ⟨media, member, rfl, sees, covered, window⟩
    exact ⟨media, ⟨member, sees, covered, window⟩, rfl⟩

end KoboStore

theorem mem_enteredScopeMediaIds {since : Int} :
    id ∈ store.enteredScopeMediaIds deviceId since ↔
      ∃ delta ∈ store.deltasOf deviceId, delta.mediaId = id ∧ delta.removed = false ∧
        since ≤ delta.createdAt := by
  unfold KoboStore.enteredScopeMediaIds
  simp only [List.mem_map, mem_scan, List.mem_filter, decide_eq_true_eq, Bool.not_eq_true']
  constructor
  · rintro ⟨delta, ⟨stored, entered, inside⟩, rfl⟩
    exact ⟨delta, stored, rfl, entered, inside⟩
  · rintro ⟨delta, stored, rfl, entered, inside⟩
    exact ⟨delta, ⟨stored, entered, inside⟩, rfl⟩

/-- Everything a session begun now finds: what it stores, and what it starts from. -/
structure BegunFrom (deviceId : Option String) (store next : KoboStore) (session : SyncSession)
    (since : Option Int) (now : Int) : Prop where
  media : next.media = store.media
  deltas : ∀ delta, delta ∈ next.deltasOf deviceId ↔
    delta ∈ store.deltasOf deviceId ∧ ∃ start ∈ since, start ≤ delta.createdAt
  createdAt : session.createdAt = now
  previous : session.previousSyncAt = since
  found : next.find session.id = some session
  entered : ∀ start ∈ since, ∀ delta ∈ store.deltasOf deviceId, delta.removed = false →
    start ≤ delta.createdAt → delta.mediaId ∈ session.mediaIds

theorem beginNewSync_spec (store : KoboStore) (viewer : AuthUser) (deviceId : Option String)
    (extensions keep : List String) (now : Int) (since : Option Int)
    (fresh : ∀ session ∈ store.sessions, session.id ≠ id) :
    let begun := (store.pruneSyncSessions deviceId keep).beginNewSync viewer deviceId extensions now
      id since
    BegunFrom deviceId store begun.1 begun.2 since now ∧
    (∀ syncId ∈ keep, ∀ session, store.find syncId = some session →
      begun.1.find syncId = some session) ∧
    (since = none → ∀ media ∈ store.media, viewer.sees media = true →
      media.extension ∈ extensions → media.id ∈ begun.2.mediaIds) := by
  intro begun
  have absent : lookup SyncSession.id (store.pruneSyncSessions deviceId keep).sessions id = none :=
    lookup_eq_none.mpr fun session member => fresh session (List.mem_filter.mp member).1
  refine ⟨⟨rfl, ?_, rfl, rfl, ?_, ?_⟩, ?_, ?_⟩
  · intro delta
    simp only [begun, KoboStore.beginNewSync, KoboStore.insertSession, KoboStore.deltasOf,
      KoboStore.pruneEntitlementDeltas, KoboStore.pruneSyncSessions, List.mem_filter,
      decide_eq_true_eq]
    constructor
    · rintro ⟨⟨stored, pruned⟩, own⟩
      exact ⟨⟨stored, own⟩, pruned.resolve_left fun other => other own⟩
    · rintro ⟨⟨stored, own⟩, inside⟩
      exact ⟨⟨stored, .inr inside⟩, own⟩
  · simp [begun, KoboStore.beginNewSync, KoboStore.insertSession, KoboStore.pruneEntitlementDeltas,
      KoboStore.find, lookup_append, absent, lookup_cons]
  · rintro start ⟨⟩ delta recorded entered inside
    simp only [begun, KoboStore.beginNewSync, KoboStore.insertSession]
    rw [mem_dedup, mem_orderBy]
    exact List.mem_append_right _
      (mem_enteredScopeMediaIds.mpr ⟨delta, recorded, rfl, entered, inside⟩)
  · intro syncId kept session found
    have pruned : (store.pruneSyncSessions deviceId keep).find syncId = some session :=
      (find_pruneSyncSessions kept).trans found
    unfold KoboStore.find at pruned ⊢
    simp only [begun, KoboStore.beginNewSync, KoboStore.insertSession,
      KoboStore.pruneEntitlementDeltas]
    rw [lookup_append, pruned]
    rfl
  · rintro rfl media stored sees covered
    exact KoboStore.mem_changedMediaIds.mpr ⟨media, stored, rfl, sees, covered, by simp⟩

end Spec

end Coppice.Kobo
