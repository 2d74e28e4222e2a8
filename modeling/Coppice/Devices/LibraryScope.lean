import Coppice.Kobo.Sync

/-!
# The library scope of a device

A device may be restricted to some of its user's libraries. Setting the scope of a
Kobo records, for every book that changed side, that it left or entered, as in
`devices/src/service.rs`; the latest transition of a book replaces the one before. The
rows are kept under the id the device has in the registry.
-/

namespace Coppice.Devices

open Coppice.Std Models Coppice.Kobo

/-- What a device may see. -/
inductive LibraryScope where
  | inherit
  | only (libraryIds : List String)
deriving DecidableEq, Repr

/-- The library ids, or `none` when the device inherits. -/
def LibraryScope.libraryIds : LibraryScope → Option (List String)
  | inherit => none
  | only ids => some ids

/-- `bind_device`: narrow the request to the device's libraries. -/
def bindDevice (user : AuthUser) (scope : LibraryScope) : AuthUser :=
  { user with deviceLibraryScope := scope.libraryIds }

inductive DeviceError where
  | invalidScope (message : String)
deriving DecidableEq, Repr

/-- The libraries the user can see. -/
def visibleLibraryIds (libraries : List String) (user : AuthUser) : List String :=
  libraries.filter (· ∉ user.excludedLibraries)

def resolveScope (scope : LibraryScope) (ownerLibraries : List String) : List String :=
  match scope.libraryIds with
  | none => ownerLibraries
  | some ids => ids.filter (· ∈ ownerLibraries)

/-- Which libraries a scope change added to and removed from a device's view. -/
structure ScopeTransition where
  entered : List String
  left : List String
deriving DecidableEq, Repr

section Transition

variable [Host]

def ScopeTransition.between (previous next : LibraryScope) (ownerLibraries : List String) :
    ScopeTransition :=
  let before := resolveScope previous ownerLibraries
  let after := resolveScope next ownerLibraries
  { entered := Host.scan (after.filter (· ∉ before))
    left := Host.scan (before.filter (· ∉ after)) }

/-- One row per book of the libraries, books in the trash apart. -/
def movedBooks (store : KoboStore) (deviceId : String) (now : Int) (libraries : List String)
    (removed : Bool) : List EntitlementDelta :=
  (Host.scan (store.media.filter fun media =>
    media.libraryId ∈ libraries ∧ media.deletedAt = none)).map fun media =>
      ⟨deviceId, media.id, removed, now⟩

/-- The rows of a transition: books that left, then books that entered. -/
def transitionDeltas (store : KoboStore) (deviceId : String) (now : Int)
    (transition : ScopeTransition) : List EntitlementDelta :=
  movedBooks store deviceId now transition.left true ++
    movedBooks store deviceId now transition.entered false

/-- Record what a transition did to the device's entitlements. -/
def recordEntitlementDeltas (store : KoboStore) (deviceId : String) (now : Int)
    (transition : ScopeTransition) : KoboStore :=
  if transition.entered = [] ∧ transition.left = [] then store
  else
    { store with
      deltas := (transitionDeltas store deviceId now transition).foldl
        (upsert EntitlementDelta.key) store.deltas }

/-- Restrict the device to `scope`'s libraries, all of which its user has to see. -/
def setLibraryScope (store : KoboStore) (libraries : List String) (user : AuthUser)
    (deviceId : String) (previous : LibraryScope) (now : Int) (scope : LibraryScope) :
    Except DeviceError (KoboStore × LibraryScope) :=
  let ownerLibraries := visibleLibraryIds libraries user
  match (scope.libraryIds.getD []).find? (· ∉ ownerLibraries) with
  | some unknown => .error (.invalidScope ("library " ++ unknown.quote ++
      " does not exist or is not visible to the device's user"))
  | none =>
    .ok (recordEntitlementDeltas store deviceId now (.between previous scope ownerLibraries),
      scope)

end Transition

section Spec

variable {libraries : List String} {user : AuthUser} {scope previous : LibraryScope}
  {libraryId deviceId : String} {media : Media} {transition : ScopeTransition}
  {store : KoboStore} {now : Int} {delta : EntitlementDelta}

theorem seesLibrary_bindDevice :
    (bindDevice user scope).seesLibrary libraryId = true ↔
      libraryId ∉ user.excludedLibraries ∧ ∀ ids ∈ scope.libraryIds, libraryId ∈ ids := by
  simp [bindDevice, AuthUser.seesLibrary]

/-- A scope resolves to the existing libraries the bound request sees. -/
theorem mem_resolveScope (known : libraryId ∈ libraries) :
    libraryId ∈ resolveScope scope (visibleLibraryIds libraries user) ↔
      (bindDevice user scope).seesLibrary libraryId = true := by
  rw [seesLibrary_bindDevice]
  unfold resolveScope
  cases scope with
  | inherit => simp [LibraryScope.libraryIds, visibleLibraryIds, known]
  | only ids => simp [LibraryScope.libraryIds, visibleLibraryIds, known, and_comm]

theorem sees_bindDevice :
    (bindDevice user scope).sees media = true ↔
      (bindDevice user scope).seesLibrary media.libraryId = true ∧ user.admits media = true := by
  simp [AuthUser.sees, AuthUser.admits, bindDevice]

theorem sees_inherit :
    (bindDevice user scope).inherit.sees media = true ↔
      media.libraryId ∉ user.excludedLibraries ∧ user.admits media = true := by
  simp [AuthUser.sees, AuthUser.admits, AuthUser.seesLibrary, AuthUser.inherit, bindDevice]

theorem mem_deltasOf :
    delta ∈ store.deltasOf (some deviceId) ↔ delta ∈ store.deltas ∧ delta.deviceId = deviceId := by
  simp [KoboStore.deltasOf]

variable [Host]

theorem mem_movedBooks {moved : List String} {removed : Bool} :
    delta ∈ movedBooks store deviceId now moved removed ↔
      ∃ media ∈ store.media, media.libraryId ∈ moved ∧ media.deletedAt = none ∧
        delta = ⟨deviceId, media.id, removed, now⟩ := by
  unfold movedBooks
  simp only [List.mem_map, mem_scan, List.mem_filter, decide_eq_true_eq]
  constructor
  · rintro ⟨media, ⟨stored, here, live⟩, rfl⟩
    exact ⟨media, stored, here, live, rfl⟩
  · rintro ⟨media, stored, here, live, rfl⟩
    exact ⟨media, ⟨stored, here, live⟩, rfl⟩

theorem mem_between (user : AuthUser) (previous scope : LibraryScope)
    (known : libraryId ∈ libraries) :
    let moves := ScopeTransition.between previous scope (visibleLibraryIds libraries user)
    (libraryId ∈ moves.entered ↔ (bindDevice user scope).seesLibrary libraryId = true ∧
      ¬(bindDevice user previous).seesLibrary libraryId = true) ∧
    (libraryId ∈ moves.left ↔ (bindDevice user previous).seesLibrary libraryId = true ∧
      ¬(bindDevice user scope).seesLibrary libraryId = true) := by
  unfold ScopeTransition.between
  simp only [mem_scan, List.mem_filter, decide_eq_true_eq, mem_resolveScope known, and_self]

/-- Setting a scope touches the deltas only. -/
theorem recordEntitlementDeltas_rows (store : KoboStore) (deviceId : String) (now : Int)
    (transition : ScopeTransition) :
    (recordEntitlementDeltas store deviceId now transition).media = store.media ∧
      (recordEntitlementDeltas store deviceId now transition).sessions = store.sessions := by
  unfold recordEntitlementDeltas
  split <;> exact ⟨rfl, rfl⟩

theorem mem_transitionDeltas (member : delta ∈ transitionDeltas store deviceId now transition) :
    delta.deviceId = deviceId ∧ delta.createdAt = now := by
  rcases List.mem_append.mp member with left | entered
  · obtain ⟨media, -, -, -, rfl⟩ := mem_movedBooks.mp left
    exact ⟨rfl, rfl⟩
  · obtain ⟨media, -, -, -, rfl⟩ := mem_movedBooks.mp entered
    exact ⟨rfl, rfl⟩

/-- A row was there, or is recorded now, by a transition that moves something. -/
theorem mem_recordEntitlementDeltas
    (member : delta ∈ (recordEntitlementDeltas store deviceId now transition).deltas) :
    delta ∈ store.deltas ∨ delta.createdAt = now ∧
      ¬(transition.entered = [] ∧ transition.left = []) := by
  unfold recordEntitlementDeltas at member
  split at member
  · exact .inl member
  rename_i moves
  rcases mem_foldl_upsert member with new | ⟨old, -⟩
  · exact .inr ⟨(mem_transitionDeltas new).2, moves⟩
  · exact .inl old

/-- A recorded row of the device stays, or makes way for one recorded now. -/
theorem recordEntitlementDeltas_keeps (now : Int) (transition : ScopeTransition)
    (recorded : delta ∈ store.deltasOf (some deviceId)) :
    ∃ row ∈ (recordEntitlementDeltas store deviceId now transition).deltasOf (some deviceId),
      row.mediaId = delta.mediaId ∧ (row = delta ∨ row.createdAt = now) := by
  obtain ⟨stored, mine⟩ := mem_deltasOf.mp recorded
  unfold recordEntitlementDeltas
  split
  · exact ⟨delta, recorded, rfl, .inl rfl⟩
  by_cases named : ∃ new ∈ transitionDeltas store deviceId now transition, new.key = delta.key
  · obtain ⟨new, member, same⟩ := named
    obtain ⟨row, kept, named, added⟩ :=
      foldl_upsert_names EntitlementDelta.key store.deltas member
    obtain ⟨device, time⟩ := mem_transitionDeltas added
    exact ⟨row, mem_deltasOf.mpr ⟨kept, device⟩, congrArg Prod.snd (named.trans same), .inr time⟩
  · push Not at named
    have kept := foldl_upsert_keeps stored fun new member => (named new member).symm
    exact ⟨delta, mem_deltasOf.mpr ⟨kept, mine⟩, rfl, .inl rfl⟩

/-- A book that does not change side keeps its rows; one that does has one new row,
which says where it went. Books in the trash are passed over. -/
theorem recordEntitlementDeltas_book (user : AuthUser) (deviceId : String)
    (previous scope : LibraryScope) (now : Int) (distinct : (store.media.map Media.id).Nodup)
    (stored : media ∈ store.media) (live : media.deletedAt = none)
    (known : media.libraryId ∈ libraries) :
    let next := recordEntitlementDeltas store deviceId now
      (.between previous scope (visibleLibraryIds libraries user))
    let before := (bindDevice user previous).seesLibrary media.libraryId
    let after := (bindDevice user scope).seesLibrary media.libraryId
    (before = after ∧ ∀ delta : EntitlementDelta, delta.mediaId = media.id →
      (delta ∈ next.deltasOf (some deviceId) ↔ delta ∈ store.deltasOf (some deviceId))) ∨
    (before ≠ after ∧
      (∀ delta ∈ next.deltasOf (some deviceId), delta.mediaId = media.id →
        delta = ⟨deviceId, media.id, !after, now⟩) ∧
      ∃ delta ∈ next.deltasOf (some deviceId), delta.mediaId = media.id) := by
  intro next before after
  obtain ⟨entered, left⟩ := mem_between user previous scope known
  generalize moves : ScopeTransition.between previous scope (visibleLibraryIds libraries user) =
    transition at entered left
  have named : ∀ new ∈ transitionDeltas store deviceId now transition, new.mediaId = media.id →
      before ≠ after ∧ new = ⟨deviceId, media.id, !after, now⟩ := by
    intro new member same
    rcases List.mem_append.mp member with gone | come
    · obtain ⟨other, otherStored, moved, -, rfl⟩ := mem_movedBooks.mp gone
      obtain rfl := List.inj_on_of_nodup_map distinct otherStored stored same
      obtain ⟨was, isNot⟩ := left.mp moved
      have off : after = false := by simpa using isNot
      exact ⟨by simp [before, was, off], by simp [off]⟩
    · obtain ⟨other, otherStored, moved, -, rfl⟩ := mem_movedBooks.mp come
      obtain rfl := List.inj_on_of_nodup_map distinct otherStored stored same
      obtain ⟨is, wasNot⟩ := entered.mp moved
      have on : after = true := is
      exact ⟨by simpa [before, on] using wasNot, by simp [on]⟩
  have rows : next.deltas = if transition.entered = [] ∧ transition.left = [] then store.deltas
      else (transitionDeltas store deviceId now transition).foldl
        (upsert EntitlementDelta.key) store.deltas := by
    simp only [next, moves, recordEntitlementDeltas]
    split <;> rfl
  simp only [mem_deltasOf, rows]
  by_cases same : before = after
  · refine .inl ⟨same, fun delta mine => and_congr_left fun _ => ?_⟩
    have apart : ∀ new ∈ transitionDeltas store deviceId now transition, delta.key ≠ new.key :=
      fun new member clash =>
        (named new member ((congrArg Prod.snd clash).symm.trans mine)).1 same
    split
    · rfl
    constructor
    · intro member
      rcases mem_foldl_upsert member with new | ⟨old, -⟩
      · exact absurd rfl (apart delta new)
      · exact old
    · intro member
      exact foldl_upsert_keeps member apart
  · have recorded : ⟨deviceId, media.id, !after, now⟩ ∈
        transitionDeltas store deviceId now transition := by
      cases on : after with
      | true =>
        have wasNot : ¬before = true := fun was => same (was.trans on.symm)
        exact List.mem_append_right _
          (mem_movedBooks.mpr ⟨media, stored, entered.mpr ⟨on, wasNot⟩, live, rfl⟩)
      | false =>
        have was : before = true := by simpa [on] using same
        exact List.mem_append_left _ (mem_movedBooks.mpr
          ⟨media, stored, left.mpr ⟨was, by simpa using on⟩, live, rfl⟩)
    have moving : ¬(transition.entered = [] ∧ transition.left = []) := by
      rintro ⟨noneEntered, noneLeft⟩
      simp [transitionDeltas, movedBooks, mem_scan, noneEntered, noneLeft] at recorded
    rw [if_neg moving]
    refine .inr ⟨same, ?_, ?_⟩
    · rintro delta ⟨member, device⟩ mine
      rcases mem_foldl_upsert member with new | ⟨-, apart⟩
      · exact (named delta new mine).2
      · exact absurd (Prod.ext device mine) (apart _ recorded)
    · obtain ⟨row, kept, key, -⟩ := foldl_upsert_names EntitlementDelta.key store.deltas recorded
      exact ⟨row, ⟨kept, congrArg Prod.fst key⟩, congrArg Prod.snd key⟩

end Spec

end Coppice.Devices
