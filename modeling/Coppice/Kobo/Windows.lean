import Coppice.Kobo.Sync
import Coppice.Std.System

/-!
# Change windows of successive sessions

A session is begun by several statements: it queries the ids of the changed books,
prunes, and only then is inserted and stamped. The next session looks back to that
stamp. `windowSystem` lets writes of books commit between any two statements; a
write after the query and before the stamp is in neither window, and as long as no
write of a synced book falls there the windows tile, whichever device a request names.
-/

namespace Coppice.Kobo

open Coppice.Std Models

/-- Where a request stands between two statements. -/
inductive Phase where
  | idle
  | starting (previousSyncAt : Option Int)
  | queried (previousSyncAt : Option Int) (beganAt : Int) (mediaIds : List String)
  | readStates (previousSyncAt : Int) (beganAt : Int) (mediaIds : List String)
  | gathered (previousSyncAt : Int) (beganAt : Int) (mediaIds : List String)
  | pruned (previousSyncAt : Option Int) (beganAt : Int) (mediaIds : List String)
  | inserted (session : SyncSession) (beganAt : Int)
deriving DecidableEq, Repr

/-- Between the query of the changed books and the stamp of the session. -/
def Phase.gap : Phase → Bool
  | idle | starting _ | inserted _ _ => false
  | queried _ _ _ | readStates _ _ _ | gathered _ _ _ | pruned _ _ _ => true

/-- The next statement of `begin_new_sync`. -/
def Phase.advance [Host] (user : AuthUser) (deviceId : Option String) (extensions : List String)
    (now : Int) (id : String) (store : KoboStore) : Phase → KoboStore × Phase
  | idle => (store, idle)
  | starting since =>
    (store, queried since now (store.changedMediaIds user extensions since))
  | queried none beganAt ids =>
    (store.pruneEntitlementDeltas deviceId none, pruned none beganAt ids)
  | queried (some since) beganAt ids =>
    (store, readStates since beganAt (ids ++ store.readingStateMediaIds since))
  | readStates since beganAt ids =>
    (store, gathered since beganAt
      (dedup (orderBy (fun id => id) (ids ++ store.enteredScopeMediaIds deviceId since))))
  | gathered since beganAt ids =>
    (store.pruneEntitlementDeltas deviceId (some since), pruned (some since) beganAt ids)
  | pruned since beganAt ids =>
    let (store, session) := store.insertSession deviceId now id ids since
    (store, inserted session beganAt)
  | inserted session beganAt => (store, inserted session beganAt)

/-- A session with the time of its first query. -/
structure Begun where
  session : SyncSession
  beganAt : Int
deriving DecidableEq, Repr

/-- The server, the request in flight and the device; with every write of a book, the
sessions whose token the device received, latest first, and every session inserted
with those followed by then. -/
structure SyncWorld where
  store : KoboStore
  phase : Phase
  token : Option SyncToken
  clock : Int
  writes : List (String × Int)
  followed : List Begun
  log : List (Begun × List Begun)
deriving DecidableEq, Repr

/-- Set the modification time of a book. -/
def KoboStore.modify (store : KoboStore) (now : Int) (mediaId : String) : KoboStore :=
  { store with
    media :=
      updateAt Media.id mediaId (fun media => { media with modifiedAt := some now }) store.media }

theorem modify_ids (store : KoboStore) (now : Int) (mediaId : String) :
    (store.modify now mediaId).media.map Media.id = store.media.map Media.id :=
  map_key_updateAt fun _ same => same

/-- A row the device's sessions cover. -/
def Synced (user : AuthUser) (extensions : List String) (media : Media) : Prop :=
  user.sees media = true ∧ media.extension ∈ extensions

section System

variable [Host] (user : AuthUser) (extensions : List String)

/-- One statement of the sync, or one committed write of a book that `allowed` admits. -/
inductive WindowStep (allowed : SyncWorld → Media → Prop) : SyncWorld → SyncWorld → Prop where
  | create {world : SyncWorld} {now : Int} (media : Media) (later : world.clock < now)
      (stamped : media.createdAt = now) (fresh : ∀ row ∈ world.store.media, row.id ≠ media.id)
      (admitted : allowed world media) :
      WindowStep allowed world
        { world with
          store := { world.store with media := world.store.media ++ [media] }
          clock := now
          writes := world.writes ++ [(media.id, now)] }
  | modify {world : SyncWorld} {now : Int} (media : Media) (later : world.clock < now)
      (stored : media ∈ world.store.media) (admitted : allowed world media) :
      WindowStep allowed world
        { world with
          store := world.store.modify now media.id
          clock := now
          writes := world.writes ++ [(media.id, now)] }
  | resume {world : SyncWorld} {now : Int} {session : SyncSession} {offset : Nat} (limit : Nat)
      (later : world.clock < now) (idle : world.phase = .idle)
      (served : world.store.serve world.token = .resume session offset) :
      WindowStep allowed world
        { world with clock := now, token := some (SyncPage.new session offset limit).syncToken }
  | start {world : SyncWorld} {now : Int} {since : Option Int} (deviceId : Option String)
      (later : world.clock < now) (idle : world.phase = .idle)
      (served : world.store.serve world.token = .fresh since) :
      WindowStep allowed world
        { world with
          clock := now
          store := world.store.pruneSyncSessions deviceId
            (world.token.map SyncToken.syncId).toList
          phase := .starting since }
  | statement {world : SyncWorld} {now : Int} (deviceId : Option String) (id : String)
      (later : world.clock < now)
      (running : ∀ session beganAt, world.phase ≠ .inserted session beganAt)
      (fresh : ∀ session ∈ world.store.sessions, session.id ≠ id) :
      WindowStep allowed world
        { world with
          clock := now
          store := (world.phase.advance user deviceId extensions now id world.store).1
          phase := (world.phase.advance user deviceId extensions now id world.store).2
          log := match (world.phase.advance user deviceId extensions now id world.store).2 with
            | .inserted session beganAt => world.log ++ [(⟨session, beganAt⟩, world.followed)]
            | _ => world.log }
  | answer {world : SyncWorld} {now : Int} {session : SyncSession} {beganAt : Int} (limit : Nat)
      (later : world.clock < now) (done : world.phase = .inserted session beganAt) :
      WindowStep allowed world
        { world with
          clock := now
          phase := .idle
          token := some (SyncPage.new session 0 limit).syncToken
          followed := ⟨session, beganAt⟩ :: world.followed }
  | lost {world : SyncWorld} {now : Int} (later : world.clock < now)
      (done : ∃ session beganAt, world.phase = .inserted session beganAt) :
      WindowStep allowed world { world with clock := now, phase := .idle }

/-- A device without a token, before any session; the times of the books are past. -/
structure SyncWorld.Fresh (world : SyncWorld) : Prop where
  idle : world.phase = .idle
  untouched : world.token = none
  unfollowed : world.followed = []
  unlogged : world.log = []
  distinct : (world.store.media.map Media.id).Nodup
  writes : ∀ write, write ∈ world.writes ↔ ∃ media ∈ world.store.media, media.id = write.1 ∧
    (media.createdAt = write.2 ∨ media.modifiedAt = some write.2)
  past : ∀ write ∈ world.writes, write.2 ≤ world.clock

/-- Syncs of one device in any interleaving with admitted writes of books. -/
def windowSystem (allowed : SyncWorld → Media → Prop) : System SyncWorld where
  Initial := SyncWorld.Fresh
  Step := WindowStep user extensions allowed

/-- Every write of a synced book before a session was inserted is in that session, or in
a session followed before it and begun after the write. -/
def SyncWorld.Tiled (world : SyncWorld) : Prop :=
  ∀ begun earlier, (begun, earlier) ∈ world.log → ∀ write ∈ world.writes,
    write.2 < begun.session.createdAt →
    (∃ media ∈ world.store.media, media.id = write.1 ∧ Synced user extensions media) →
    write.1 ∈ begun.session.mediaIds ∨
      ∃ other ∈ earlier, write.2 < other.beganAt ∧ write.1 ∈ other.session.mediaIds

/-- Writes of synced books keep out of the gap between a query and its stamp. -/
def OutsideGap (world : SyncWorld) (media : Media) : Prop :=
  world.phase.gap = true → ¬Synced user extensions media

end System

section Invariant

variable (user : AuthUser) (extensions : List String) {world next : SyncWorld} {id : String}
  {now : Int}

/-- The id names a synced book. -/
def InScope (world : SyncWorld) (id : String) : Prop :=
  ∃ media ∈ world.store.media, media.id = id ∧ Synced user extensions media

/-- Some of the sessions carry every write of a synced book before `time`. -/
def Covers (world : SyncWorld) (sessions : List Begun) (time : Int) : Prop :=
  ∀ write ∈ world.writes, write.2 < time → InScope user extensions world write.1 →
    ∃ begun ∈ sessions, write.2 < begun.beganAt ∧ write.1 ∈ begun.session.mediaIds

/-- A window starts where the session last followed was inserted. -/
def Follows (world : SyncWorld) (since : Option Int) : Prop :=
  ∀ time ∈ since, ∃ begun rest, world.followed = begun :: rest ∧ begun.session.createdAt = time

/-- The ids cover the window up to the query, and nothing was written after it. -/
def Gathered (world : SyncWorld) (since : Option Int) (beganAt : Int) (ids : List String) : Prop :=
  ∀ write ∈ world.writes, InScope user extensions world write.1 →
    write.2 < beganAt ∧ ((∀ time ∈ since, time ≤ write.2) → write.1 ∈ ids)

/-- What a request knows between two statements. -/
def PhaseSound (world : SyncWorld) : Phase → Prop
  | .idle => True
  | .starting since => Follows world since
  | .queried since beganAt ids | .pruned since beganAt ids =>
    Follows world since ∧ Gathered user extensions world since beganAt ids
  | .readStates since beganAt ids | .gathered since beganAt ids =>
    Follows world (some since) ∧ Gathered user extensions world (some since) beganAt ids
  | .inserted session beganAt =>
    session.createdAt ≤ world.clock ∧ world.store.find session.id = some session ∧
      Covers user extensions world (⟨session, beganAt⟩ :: world.followed) session.createdAt

/-- Writes are kept in the rows, the token names the session last followed, and the
sessions followed by then cover every session's past. -/
structure Windows (world : SyncWorld) : Prop where
  distinct : (world.store.media.map Media.id).Nodup
  recorded : ∀ write ∈ world.writes, ∃ media ∈ world.store.media, media.id = write.1 ∧
    (write.2 ≤ media.createdAt ∨ ∃ modified ∈ media.modifiedAt, write.2 ≤ modified)
  past : ∀ write ∈ world.writes, write.2 ≤ world.clock
  acknowledged : ∀ token ∈ world.token, ∃ begun rest,
    world.followed = begun :: rest ∧ world.store.find token.syncId = some begun.session
  covered : ∀ begun rest, world.followed = begun :: rest →
    begun.session.createdAt ≤ world.clock ∧
      Covers user extensions world world.followed begun.session.createdAt
  phase : PhaseSound user extensions world world.phase
  log : ∀ begun earlier, (begun, earlier) ∈ world.log →
    begun.session.createdAt ≤ world.clock ∧
      Covers user extensions world (begun :: earlier) begun.session.createdAt

/-- One write of a book, seen from the sync: a later stamp on one id. -/
structure Written (world next : SyncWorld) (id : String) (now : Int) : Prop where
  later : world.clock < now
  clock : next.clock = now
  writes : next.writes = world.writes ++ [(id, now)]
  phase : next.phase = world.phase
  token : next.token = world.token
  followed : next.followed = world.followed
  log : next.log = world.log
  sessions : next.store.sessions = world.store.sessions
  inScope : ∀ write ∈ world.writes, InScope user extensions next write.1 →
    InScope user extensions world write.1
  quiet : world.phase.gap = true → ¬InScope user extensions next id

variable {user extensions}

section Writes

variable (written : Written user extensions world next id now) {beganAt : Int} {ids : List String}
  {since : Option Int}
include written

theorem Written.covers
    {sessions : List Begun} {time : Int} (covers : Covers user extensions world sessions time)
    (old : time ≤ world.clock) : Covers user extensions next sessions time := by
  intro write member before inScope
  rw [written.writes] at member
  rcases mem_concat.mp member with kept | rfl
  · exact covers write kept before (written.inScope write kept inScope)
  · have later := written.later
    omega

theorem Written.gathered
    (gap : world.phase.gap = true) (gathered : Gathered user extensions world since beganAt ids) :
    Gathered user extensions next since beganAt ids := by
  intro write member inScope
  rw [written.writes] at member
  rcases mem_concat.mp member with kept | rfl
  · exact gathered write kept (written.inScope write kept inScope)
  · exact absurd inScope (written.quiet gap)

theorem Written.follows (follows : Follows world since) : Follows next since := by
  unfold Follows
  rw [written.followed]
  exact follows

theorem Written.phaseSound (sound : PhaseSound user extensions world world.phase) :
    PhaseSound user extensions next next.phase := by
  rw [written.phase]
  cases here : world.phase with
  | idle => trivial
  | starting since =>
    rw [here] at sound
    exact written.follows sound
  | queried since beganAt ids | pruned since beganAt ids | readStates since beganAt ids
  | gathered since beganAt ids =>
    rw [here] at sound
    exact ⟨written.follows sound.1, written.gathered (by rw [here]; rfl) sound.2⟩
  | inserted session beganAt =>
    rw [here] at sound
    obtain ⟨past, stored, covers⟩ := sound
    have later := written.later
    refine ⟨by rw [written.clock]; omega, ?_, ?_⟩
    · unfold KoboStore.find at stored ⊢
      rw [written.sessions]
      exact stored
    · rw [written.followed]
      exact written.covers covers past

end Writes

section Steps

variable (windows : Windows user extensions world) {media : Media} {session : SyncSession}
include windows

/-- A write outside the gap keeps every window whole. -/
theorem Windows.written (id : String) (now : Int)
    (written : Written user extensions world next id now)
    (distinct : (next.store.media.map Media.id).Nodup)
    (recorded : ∀ write ∈ next.writes, ∃ media ∈ next.store.media, media.id = write.1 ∧
      (write.2 ≤ media.createdAt ∨ ∃ modified ∈ media.modifiedAt, write.2 ≤ modified)) :
    Windows user extensions next where
  distinct := distinct
  recorded := recorded
  past write member := by
    rw [written.writes] at member
    rw [written.clock]
    rcases mem_concat.mp member with kept | rfl
    · exact (windows.past write kept).trans written.later.le
    · exact le_rfl
  acknowledged token held := by
    rw [written.token] at held
    obtain ⟨begun, rest, followed, stored⟩ := windows.acknowledged token held
    refine ⟨begun, rest, written.followed.trans followed, ?_⟩
    unfold KoboStore.find at stored ⊢
    rw [written.sessions]
    exact stored
  covered begun rest followed := by
    rw [written.followed] at followed
    obtain ⟨past, covers⟩ := windows.covered begun rest followed
    rw [written.clock, written.followed]
    exact ⟨past.trans written.later.le, written.covers covers past⟩
  phase := written.phaseSound windows.phase
  log begun earlier logged := by
    rw [written.log] at logged
    obtain ⟨past, covers⟩ := windows.log begun earlier logged
    rw [written.clock]
    exact ⟨past.trans written.later.le, written.covers covers past⟩

variable (later : world.clock < now)
include later

theorem Windows.create
    (stamped : media.createdAt = now)
    (fresh : ∀ row ∈ world.store.media, row.id ≠ media.id)
    (admitted : OutsideGap user extensions world media) :
    Windows user extensions
      { world with
        store := { world.store with media := world.store.media ++ [media] }
        clock := now
        writes := world.writes ++ [(media.id, now)] } := by
  refine windows.written media.id now
    ⟨later, rfl, rfl, rfl, rfl, rfl, rfl, rfl, ?_, ?_⟩ ?_ ?_
  · rintro write member ⟨row, stored, named, synced⟩
    rcases mem_concat.mp stored with kept | rfl
    · exact ⟨row, kept, named, synced⟩
    · obtain ⟨old, oldStored, oldNamed, -⟩ := windows.recorded write member
      exact absurd (oldNamed.trans named.symm) (fresh old oldStored)
  · rintro gap ⟨row, stored, named, synced⟩
    rcases mem_concat.mp stored with kept | rfl
    · exact fresh row kept named
    · exact admitted gap synced
  · exact nodup_concat windows.distinct fresh
  · refine forall_mem_concat (fun write kept => ?_) ⟨media, by simp, rfl, .inl stamped.ge⟩
    obtain ⟨row, stored, holds⟩ := windows.recorded write kept
    exact ⟨row, List.mem_append_left _ stored, holds⟩

theorem Windows.modify
    (stored : media ∈ world.store.media)
    (admitted : OutsideGap user extensions world media) :
    Windows user extensions
      { world with
        store := world.store.modify now media.id
        clock := now
        writes := world.writes ++ [(media.id, now)] } := by
  have rows : ∀ row ∈ (world.store.modify now media.id).media, ∃ old ∈ world.store.media,
      old.id = row.id ∧ (Synced user extensions row →
        Synced user extensions old) := by
    intro row member
    rcases mem_updateAt.mp member with ⟨kept, -⟩ | ⟨old, kept, -, rfl⟩
    · exact ⟨row, kept, rfl, id⟩
    · exact ⟨old, kept, rfl, id⟩
  refine windows.written media.id now
    ⟨later, rfl, rfl, rfl, rfl, rfl, rfl, rfl, ?_, ?_⟩ ?_ ?_
  · rintro write - ⟨row, member, named, synced⟩
    obtain ⟨old, kept, same, back⟩ := rows row member
    exact ⟨old, kept, same.trans named, back synced⟩
  · rintro gap ⟨row, member, named, synced⟩
    obtain ⟨old, kept, same, back⟩ := rows row member
    obtain rfl := List.inj_on_of_nodup_map windows.distinct kept stored (same.trans named)
    exact admitted gap (back synced)
  · exact (modify_ids world.store now media.id).symm ▸ windows.distinct
  refine forall_mem_concat (fun write old => ?_) ⟨{ media with modifiedAt := some now },
    mem_updateAt.mpr (.inr ⟨media, stored, rfl, rfl⟩), rfl, .inr ⟨now, rfl, le_rfl⟩⟩
  obtain ⟨row, kept, named, time⟩ := windows.recorded write old
  have past := windows.past write old
  by_cases touched : row.id = media.id
  · refine ⟨{ row with modifiedAt := some now },
      mem_updateAt.mpr (.inr ⟨row, kept, touched, rfl⟩), named, .inr ⟨now, rfl, ?_⟩⟩
    omega
  · exact ⟨row, mem_updateAt.mpr (.inl ⟨kept, touched⟩), named, time⟩

/-- Time passing alone keeps the windows. -/
theorem Windows.tick :
    Windows user extensions { world with clock := now } where
  __ := windows
  past write member := (windows.past write member).trans later.le
  covered begun rest followed :=
    ⟨(windows.covered begun rest followed).1.trans later.le,
      (windows.covered begun rest followed).2⟩
  phase := by
    have sound := windows.phase
    cases here : world.phase with
    | inserted session beganAt =>
      rw [here] at sound
      exact ⟨sound.1.trans later.le, sound.2⟩
    | idle | starting | queried | readStates | gathered | pruned =>
      rw [here] at sound
      exact sound
  log begun earlier logged :=
    ⟨(windows.log begun earlier logged).1.trans later.le, (windows.log begun earlier logged).2⟩

end Steps

section Statement

variable [Host] {deviceId : Option String}

/-- A stored session stays; one inserted under a new id is found. -/
theorem advance_find (phase : Phase) (store : KoboStore) {syncId : String}
    (found : store.find syncId = some session) :
    (phase.advance user deviceId extensions now id store).1.find syncId = some session := by
  cases phase with
  | queried since => cases since <;> exact found
  | pruned since beganAt ids =>
    unfold KoboStore.find at found ⊢
    simp only [Phase.advance, KoboStore.insertSession]
    rw [lookup_append, found]
    rfl
  | idle | starting | readStates | gathered | inserted => exact found

/-- The query at the start of a session finds every write of its window. -/
theorem Windows.query (windows : Windows user extensions world) (later : world.clock < now)
    (since : Option Int) :
    Gathered user extensions world since now
      (world.store.changedMediaIds user extensions since) := by
  intro write member inScope
  have past := windows.past write member
  refine ⟨by omega, fun window => ?_⟩
  obtain ⟨media, stored, named, sees, covered⟩ := inScope
  obtain ⟨row, rowStored, rowNamed, time⟩ := windows.recorded write member
  obtain rfl := List.inj_on_of_nodup_map windows.distinct stored rowStored
    (named.trans rowNamed.symm)
  refine KoboStore.mem_changedMediaIds.mpr ⟨media, stored, named, sees, covered, ?_⟩
  intro start given
  have inside := window start given
  rcases time with created | ⟨modified, given, stamp⟩
  · exact .inl (by omega)
  · exact .inr ⟨modified, given, by omega⟩

omit [Host] in
theorem Gathered.mono {more : List String}
    (gathered : Gathered user extensions world since beganAt ids) (kept : ids ⊆ more) :
    Gathered user extensions world since beganAt more := by
  intro write member inScope
  obtain ⟨before, carried⟩ := gathered write member inScope
  exact ⟨before, fun window => kept (carried window)⟩

variable (windows : Windows user extensions world)
include windows

omit [Host] in
/-- A session inserted from gathered ids covers what the sessions before it do not. -/
theorem Gathered.insert (follows : Follows world since)
    (gathered : Gathered user extensions world since beganAt ids)
    (carries : session.mediaIds = ids) :
    Covers user extensions world (⟨session, beganAt⟩ :: world.followed) session.createdAt := by
  intro write member _ inScope
  obtain ⟨before, carried⟩ := gathered write member inScope
  by_cases window : ∀ time ∈ since, time ≤ write.2
  · exact ⟨⟨session, beganAt⟩, by simp, before, by rw [carries]; exact carried window⟩
  push Not at window
  obtain ⟨time, given, outside⟩ := window
  obtain ⟨begun, rest, followed, stamp⟩ := follows time given
  obtain ⟨other, older, holds⟩ :=
    (windows.covered begun rest followed).2 write member (by omega) inScope
  exact ⟨other, List.mem_cons_of_mem _ older, holds⟩

theorem Windows.statement (later : world.clock < now)
    (running : ∀ session beganAt, world.phase ≠ .inserted session beganAt)
    (fresh : ∀ session ∈ world.store.sessions, session.id ≠ id) :
    Windows user extensions
      { world with
        clock := now
        store := (world.phase.advance user deviceId extensions now id world.store).1
        phase := (world.phase.advance user deviceId extensions now id world.store).2
        log := match (world.phase.advance user deviceId extensions now id world.store).2 with
          | .inserted session beganAt => world.log ++ [(⟨session, beganAt⟩, world.followed)]
          | _ => world.log } := by
  have ticked := windows.tick later
  have sound := windows.phase
  have query := windows.query later
  have acknowledged : ∀ token ∈ world.token, ∃ begun rest, world.followed = begun :: rest ∧
      (world.phase.advance user deviceId extensions now id world.store).1.find token.syncId =
        some begun.session := by
    intro token held
    obtain ⟨begun, rest, followed, stored⟩ := windows.acknowledged token held
    exact ⟨begun, rest, followed, advance_find _ _ stored⟩
  have inserts := fun since beganAt ids (follows : Follows world since)
      (gathered : Gathered user extensions world since beganAt ids) =>
    gathered.insert windows follows
      (rfl : (world.store.insertSession deviceId now id ids since).2.mediaIds = ids)
  obtain ⟨store, phase, token, clock, writes, followed, log⟩ := world
  cases phase with
  | idle => exact ticked
  | starting since => exact { ticked with phase := ⟨sound, query since⟩ }
  | queried since beganAt ids =>
    cases since with
    | none => exact { ticked with acknowledged, phase := sound }
    | some since =>
      exact { ticked with phase := ⟨sound.1, sound.2.mono (List.subset_append_left _ _)⟩ }
  | readStates since beganAt ids =>
    refine { ticked with phase := ⟨sound.1, sound.2.mono fun id member => ?_⟩ }
    rw [mem_dedup, mem_orderBy]
    exact List.mem_append_left _ member
  | gathered since beganAt ids =>
    exact { ticked with acknowledged, phase := sound }
  | pruned since beganAt ids =>
    have covers := inserts since beganAt ids sound.1 sound.2
    refine { ticked with acknowledged, phase := ⟨le_rfl, ?_, covers⟩, log := ?_ }
    · have absent : lookup SyncSession.id store.sessions id = none := lookup_eq_none.mpr fresh
      simp [Phase.advance, KoboStore.insertSession, KoboStore.find, lookup_append, absent,
        lookup_cons]
    intro begun earlier logged
    rcases List.mem_append.mp logged with old | new
    · exact ticked.log begun earlier old
    · obtain ⟨rfl, rfl⟩ := Prod.mk.inj (List.mem_singleton.mp new)
      exact ⟨le_rfl, covers⟩
  | inserted session beganAt => exact absurd rfl (running session beganAt)

theorem Windows.step
    (step : WindowStep user extensions (OutsideGap user extensions) world next) :
    Windows user extensions next := by
  cases step with
  | create media later stamped absent admitted =>
    exact windows.create later stamped absent admitted
  | modify media later stored admitted => exact windows.modify later stored admitted
  | resume limit later idle served =>
    obtain ⟨syncId, held, found⟩ := serve_resume served
    refine { windows.tick later with acknowledged := ?_ }
    rintro token ⟨⟩
    obtain ⟨begun, rest, followed, stored⟩ := windows.acknowledged _ held
    refine ⟨begun, rest, followed, ?_⟩
    rw [SyncPage.syncId_new, find_key found]
    exact stored
  | start deviceId later idle served =>
    refine { windows.tick later with acknowledged := ?_, phase := ?_ }
    · intro token held
      obtain ⟨begun, rest, followed, stored⟩ := windows.acknowledged token held
      refine ⟨begun, rest, followed, ?_⟩
      rw [find_pruneSyncSessions (by simp [show world.token = some token from held])]
      exact stored
    · intro time member
      rw [(serve_fresh served).1] at member
      simp only [Option.mem_def, Option.map_eq_some_iff, Option.bind_eq_some_iff] at member
      obtain ⟨session, ⟨token, held, found⟩, rfl⟩ := member
      obtain ⟨begun, rest, followed, stored⟩ := windows.acknowledged token held
      exact ⟨begun, rest, followed, by rw [Option.mem_unique stored found]⟩
  | statement deviceId id later running fresh => exact windows.statement later running fresh
  | @answer _ session beganAt limit later done =>
    obtain ⟨past, stored, covers⟩ : PhaseSound user extensions world (.inserted session beganAt) :=
      done ▸ windows.phase
    refine { windows.tick later with acknowledged := ?_, covered := ?_, phase := trivial }
    · rintro token ⟨⟩
      refine ⟨_, _, rfl, ?_⟩
      rw [SyncPage.syncId_new]
      exact stored
    · rintro begun rest ⟨⟩
      exact ⟨past.trans later.le, covers⟩
  | lost later done => exact { windows.tick later with phase := trivial }

end Statement

end Invariant

section Main

variable [Host] (user : AuthUser) (extensions : List String)

theorem windows_of_reachable {world : SyncWorld}
    (reachable : (windowSystem user extensions (OutsideGap user extensions)).Reachable world) :
    Windows user extensions world := by
  refine reachable.invariant ?_ ?_
  · intro world fresh
    refine ⟨fresh.distinct, ?_, fresh.past, ?_, ?_, ?_, ?_⟩
    · intro write member
      obtain ⟨media, stored, named, time⟩ := (fresh.writes write).mp member
      refine ⟨media, stored, named, ?_⟩
      rcases time with created | modified
      · exact .inl created.ge
      · exact .inr ⟨write.2, modified, le_rfl⟩
    · simp [fresh.untouched]
    · simp [fresh.unfollowed]
    · rw [fresh.idle]
      trivial
    · simp [fresh.unlogged]
  · exact fun _ _ windows step => windows.step step

/-- In every run whose writes of synced books keep out of the gap between a session's
query and its stamp, no book is lost between two windows. -/
theorem sync_windows_tile {world : SyncWorld}
    (reachable : (windowSystem user extensions (OutsideGap user extensions)).Reachable world) :
    world.Tiled user extensions := by
  intro begun earlier logged write member before inScope
  obtain ⟨-, covers⟩ := (windows_of_reachable user extensions reachable).log begun earlier logged
  obtain ⟨other, carries, after, carried⟩ := covers write member before inScope
  rcases List.mem_cons.mp carries with rfl | followed
  · exact .inl carried
  · exact .inr ⟨other, followed, after, carried⟩

end Main

section Sample

local instance windowsHost : Host := Host.sample

/-- A reader without restrictions. -/
def sampleReader : AuthUser := ⟨[], none, none⟩

/-- A server without books and a device that never synced. -/
def sampleServer : SyncWorld := ⟨⟨[], [], [], []⟩, .idle, none, 0, [], [], []⟩

def sampleNovel (createdAt : Int) : Media :=
  ⟨"novel", "epub", "library", none, none, createdAt, none, none⟩

/-- The first sync, with a book added after its query and before its stamp. -/
def sampleMissed : SyncWorld :=
  { store := ⟨[sampleNovel 3], [], [], [⟨"first", [], 5, none, ""⟩]⟩
    phase := .idle
    token := some (.completedV1 "first")
    clock := 6
    writes := [("novel", 3)]
    followed := [⟨⟨"first", [], 5, none, ""⟩, 2⟩]
    log := [(⟨⟨"first", [], 5, none, ""⟩, 2⟩, [])] }

theorem sampleServer_fresh : sampleServer.Fresh :=
  ⟨rfl, rfl, rfl, rfl, by decide, by simp [sampleServer], by simp [sampleServer]⟩

theorem sampleMissed_reachable :
    (windowSystem sampleReader ["epub"] fun _ _ => True).Reachable sampleMissed := by
  have asked := (System.Reachable.initial sampleServer_fresh :
    (windowSystem sampleReader ["epub"] fun _ _ => True).Reachable _).step
      (.start none (by decide : (0 : Int) < 1) rfl rfl)
  have queried := asked.step (.statement none "" (by decide : (1 : Int) < 2) nofun nofun)
  have added := queried.step
    (.create (sampleNovel 3) (by decide : (2 : Int) < 3) rfl nofun trivial)
  have pruned := added.step (.statement none "" (by decide : (3 : Int) < 4) nofun nofun)
  have stamped := pruned.step (.statement none "first" (by decide : (4 : Int) < 5) nofun nofun)
  have answered := stamped.step (.answer 10 (by decide : (5 : Int) < 6) rfl)
  exact answered

/-- A book added between query and stamp is in no session, not even in the next one. -/
theorem book_lost_between_windows :
    ∃ world, (windowSystem sampleReader ["epub"] fun _ _ => True).Reachable world ∧
      ¬world.Tiled sampleReader ["epub"] ∧ ("novel", 3) ∈ world.writes ∧
      world.log.map (fun entry => (entry.1.session.createdAt, entry.1.session.mediaIds)) =
        [(5, []), (12, [])] := by
  have asked := sampleMissed_reachable.step (.start none (by decide : (6 : Int) < 7) rfl rfl)
  have queried := asked.step (.statement none "" (by decide : (7 : Int) < 8) nofun (by decide))
  have read := queried.step (.statement none "" (by decide : (8 : Int) < 9) nofun (by decide))
  have entered := read.step (.statement none "" (by decide : (9 : Int) < 10) nofun (by decide))
  have pruned := entered.step (.statement none "" (by decide : (10 : Int) < 11) nofun (by decide))
  have stamped := pruned.step
    (.statement none "second" (by decide : (11 : Int) < 12) nofun (by decide))
  refine ⟨_, stamped, fun tiled => ?_, by decide, by decide⟩
  have carried := tiled ⟨⟨"first", [], 5, none, ""⟩, 2⟩ [] (by decide) ("novel", 3) (by decide)
    (by decide) ⟨sampleNovel 3, by decide, rfl, by decide, by decide⟩
  simp at carried

/-- A book there before the first sync is in its session. -/
theorem sync_windows_tile_sample :
    ∃ world, (windowSystem sampleReader ["epub"]
        (OutsideGap sampleReader ["epub"])).Reachable world ∧
      world.log.map (fun entry => entry.1.session.mediaIds) = [["novel"]] ∧
      world.Tiled sampleReader ["epub"] := by
  have start : (windowSystem sampleReader ["epub"]
      (OutsideGap sampleReader ["epub"])).Reachable sampleServer := .initial sampleServer_fresh
  have added := start.step (.create (sampleNovel 1) (by decide : (0 : Int) < 1) rfl nofun nofun)
  have asked := added.step (.start none (by decide : (1 : Int) < 2) rfl rfl)
  have queried := asked.step (.statement none "" (by decide : (2 : Int) < 3) nofun nofun)
  have pruned := queried.step (.statement none "" (by decide : (3 : Int) < 4) nofun nofun)
  have stamped := pruned.step (.statement none "first" (by decide : (4 : Int) < 5) nofun nofun)
  exact ⟨_, stamped, by decide, sync_windows_tile sampleReader ["epub"] stamped⟩

end Sample

end Coppice.Kobo
