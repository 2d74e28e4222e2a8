import Coppice.Ingest.Approvals

/-!
# Custody of approved items

Every item is at rest in staging, in the hands of one approval, or committed. What an approval has
placed in the library is its own until it commits or moves it back.
-/

namespace Coppice.Ingest

open Coppice.Std List

section Invariant

variable (libraryRoot : Path) (start : Registry)

def Approving.holder : Approving → Option String
  | .checked transit | .tested transit | .sidecars transit _ | .sidecarTested transit _ _ _
  | .commit transit | .restoring transit | .restoringSidecars transit _ => some transit.item.id
  | _ => none

/-- The row is the loaded one, and the paths in staging have what they had. -/
structure Resting (registry : Registry) (item : DropItem) : Prop where
  row : lookup DropItem.id registry.items item.id = some item
  homes : ∀ home ∈ homes item, registry.disk.tree home = start.disk.tree home

/-- What an approval knows of the item it has in hand. -/
structure Holding (registry : Registry) (transit : Transit) : Prop where
  listed : transit.item ∈ start.items
  row : lookup DropItem.id registry.items transit.item.id = some transit.item
  hand : transit.item.id ∈ registry.hand
  pending : transit.item.status ≠ .committed
  occupied : start.disk.tree transit.item.stagingPath ≠ []
  destination : ∃ folder name, transit.destination = libraryRoot ++ folder ++ [name]

/-- A sidecar that stands beside the publication. -/
structure Beside (registry : Registry) (transit : Transit) (target : Path) (source : Path)
    (name : String) : Prop where
  outer : source ∈ outerSidecars transit.item
  named : fileName source = some name
  place : target = transit.folder ++ [name]
  bytes : registry.disk.tree target = start.disk.tree source
  occupied : start.disk.tree source ≠ []
  gone : registry.disk.tree source = []

/-- Some sidecars stand beside the publication, the others at home. -/
structure SidecarsAt (registry : Registry) (transit : Transit) (placed : List Path) : Prop where
  nodup : placed.Nodup
  beside : ∀ target ∈ placed, ∃ source name, Beside start registry transit target source name
  home : ∀ source ∈ outerSidecars transit.item,
    (∀ name, fileName source = some name → transit.folder ++ [name] ∉ placed) →
      registry.disk.tree source = start.disk.tree source

/-- The publication is at its destination. -/
structure Arrived (registry : Registry) (transit : Transit) : Prop where
  file : registry.disk.tree transit.destination = start.disk.tree transit.item.stagingPath
  gone : registry.disk.tree transit.item.stagingPath = []
  sidecars : SidecarsAt start registry transit transit.moved
  apart : ∀ target ∈ transit.moved, Apart target transit.destination

/-- What an approval knows at each step. -/
def Approving.Knows (registry : Registry) : Approving → Prop
  | .checked transit | .tested transit =>
    Holding libraryRoot start registry transit ∧ Resting start registry transit.item ∧
      transit.moved = []
  | .sidecars transit rest =>
    Holding libraryRoot start registry transit ∧ Arrived start registry transit ∧
      ∀ sidecar ∈ rest, sidecar ∈ transit.item.sidecarPaths
  | .sidecarTested transit source name rest =>
    Holding libraryRoot start registry transit ∧ Arrived start registry transit ∧
      fileName source = some name ∧
        ∀ sidecar ∈ source :: rest, sidecar ∈ transit.item.sidecarPaths
  | .commit transit | .restoring transit =>
    Holding libraryRoot start registry transit ∧ Arrived start registry transit
  | .restoringSidecars transit rest =>
    Holding libraryRoot start registry transit ∧
      registry.disk.tree transit.item.stagingPath = start.disk.tree transit.item.stagingPath ∧
        SidecarsAt start registry transit rest
  | .call _ _ | .committed _ | .failed _ | .succeeded | .ended => True

/-- What an approval has placed is in the library, away from committed publications. -/
structure Approving.Custody (task : Approving) (registry : Registry) : Prop where
  knows : task.Knows libraryRoot start registry
  library : ∀ path ∈ task.placed, libraryRoot <+: path
  media : ∀ path ∈ task.placed, ∀ row ∈ registry.media, Apart path row.path

/-- Two approvals have different items in hand and nothing placed in common. -/
structure Separate (first second : Approving) : Prop where
  holder : ∀ id, first.holder = some id → second.holder ≠ some id
  placed : ∀ here ∈ first.placed, ∀ there ∈ second.placed, Apart here there

structure RegistryKept (registry : Registry) : Prop where
  own : OwnBytes start registry
  library : ∀ row ∈ registry.media, libraryRoot <+: row.path
  known : ∀ id item, lookup DropItem.id registry.items id = some item →
    ∃ first ∈ start.items, first.id = id
  unheld : ∀ item ∈ start.items, item.id ∉ registry.hand → Resting start registry item ∨
    ∃ current, lookup DropItem.id registry.items item.id = some current ∧
      current.status = .committed
  unblocked : ∀ item ∈ start.items, ∀ home ∈ homes item, registry.disk.Unblocked home

abbrev InCustody : Pool Registry Approving → Prop :=
  Pool.Holds (RegistryKept libraryRoot start) (fun task => task.Custody libraryRoot start) Separate

end Invariant

variable {libraryRoot path : Path} {start registry : Registry} {item : DropItem}
  {pool : Pool Registry Approving} {task task' : Approving}

section Paths

variable {sidecar : Path}

theorem mem_homes_self (item : DropItem) : item.stagingPath ∈ homes item := mem_cons_self

theorem mem_homes_outer (outer : sidecar ∈ outerSidecars item) : sidecar ∈ homes item :=
  mem_cons_of_mem _ outer

/-- Staging is apart from everything in the library. -/
theorem Layout.home_library (layout : Layout libraryRoot start) (listed : item ∈ start.items)
    {home : Path} (at_ : home ∈ homes item) (inside : libraryRoot <+: path) : Apart path home := by
  obtain ⟨rest, rfl⟩ := inside
  exact (layout.library item listed home at_).below

theorem outer_apart (outer : sidecar ∈ outerSidecars item) : Apart sidecar item.stagingPath :=
  of_decide_eq_true (mem_filter.1 outer).2

theorem mem_of_outer (outer : sidecar ∈ outerSidecars item) : sidecar ∈ item.sidecarPaths :=
  mem_of_mem_filter outer

/-- An item whose homes are as they were is at rest with all its sidecars. -/
theorem Resting.atRest (layout : Layout libraryRoot start) (listed : item ∈ start.items)
    (resting : Resting start registry item) : AtRest start registry item := by
  have file := resting.homes _ (mem_homes_self item)
  refine ⟨resting.row, file, fun sidecar member => ?_⟩
  rcases layout.inside item listed sidecar member with apart | ⟨rest, rfl⟩
  · exact resting.homes sidecar
      (mem_homes_outer (mem_filter.2 ⟨member, decide_eq_true apart⟩))
  · rw [Files.tree_below, Files.tree_below, file]

theorem Layout.only (layout : Layout libraryRoot start) {first second : DropItem}
    (here : first ∈ start.items) (there : second ∈ start.items) (same : first.id = second.id) :
    first = second :=
  Option.some.inj (((lookup_eq_some_iff layout.ids).2 ⟨here, rfl⟩).symm.trans
    (same ▸ (lookup_eq_some_iff layout.ids).2 ⟨there, rfl⟩))

end Paths

section Others

variable {next : Registry} {other : Approving} {transit : Transit}

theorem Holding.frame (holding : Holding libraryRoot start registry transit)
    (row : lookup DropItem.id next.items transit.item.id =
      lookup DropItem.id registry.items transit.item.id)
    (hand : transit.item.id ∈ next.hand) : Holding libraryRoot start next transit :=
  { holding with row := row.trans holding.row, hand }

theorem SidecarsAt.frame {placed : List Path} (at_ : SidecarsAt start registry transit placed)
    (homes : ∀ home ∈ homes transit.item, next.disk.tree home = registry.disk.tree home)
    (same : ∀ path ∈ placed, next.disk.tree path = registry.disk.tree path) :
    SidecarsAt start next transit placed := by
  refine ⟨at_.nodup, fun target listed => ?_, fun source outer absent => ?_⟩
  · obtain ⟨source, name, beside⟩ := at_.beside target listed
    exact ⟨source, name, { beside with
      bytes := (same target listed).trans beside.bytes
      gone := (homes source (mem_homes_outer beside.outer)).trans beside.gone }⟩
  · exact (homes source (mem_homes_outer outer)).trans (at_.home source outer absent)

theorem Arrived.frame (arrived : Arrived start registry transit)
    (homes : ∀ home ∈ homes transit.item, next.disk.tree home = registry.disk.tree home)
    (same : ∀ path ∈ transit.destination :: transit.moved,
      next.disk.tree path = registry.disk.tree path) : Arrived start next transit :=
  ⟨(same _ mem_cons_self).trans arrived.file,
    (homes _ (mem_homes_self transit.item)).trans arrived.gone,
    arrived.sidecars.frame homes (forall_mem_cons.1 same).2,
    arrived.apart⟩

/-- An approval's knowledge rests on its item's row and homes and on what it has placed. -/
theorem Knows.frame (knows : task.Knows libraryRoot start registry)
    (row : ∀ id, task.holder = some id →
      lookup DropItem.id next.items id = lookup DropItem.id registry.items id)
    (hand : ∀ id, task.holder = some id → id ∈ registry.hand → id ∈ next.hand)
    (homes : ∀ item ∈ start.items, task.holder = some item.id → ∀ home ∈ homes item,
      next.disk.tree home = registry.disk.tree home)
    (placed : ∀ path ∈ task.placed, next.disk.tree path = registry.disk.tree path) :
    task.Knows libraryRoot start next := by
  have held : ∀ {transit : Transit}, Holding libraryRoot start registry transit →
      task.holder = some transit.item.id → Holding libraryRoot start next transit :=
    fun holding same => holding.frame (row _ same) (hand _ same holding.hand)
  cases task with
  | checked transit | tested transit =>
    obtain ⟨holding, resting, none⟩ := knows
    refine ⟨held holding rfl, ⟨(row _ rfl).trans resting.row, fun home at_ => ?_⟩, none⟩
    exact (homes _ holding.listed rfl home at_).trans (resting.homes home at_)
  | sidecars transit rest | sidecarTested transit source name rest =>
    obtain ⟨holding, arrived, more⟩ := knows
    exact ⟨held holding rfl, arrived.frame (homes _ holding.listed rfl) placed, more⟩
  | commit transit | restoring transit =>
    obtain ⟨holding, arrived⟩ := knows
    exact ⟨held holding rfl, arrived.frame (homes _ holding.listed rfl) placed⟩
  | restoringSidecars transit rest =>
    obtain ⟨holding, file, sidecars⟩ := knows
    have same := homes _ holding.listed rfl
    exact ⟨held holding rfl, (same _ (mem_homes_self _)).trans file, sidecars.frame same placed⟩
  | call _ _ | committed _ | failed _ | succeeded | ended => trivial

/-- Who has an item in hand is listed, with an item that was there at the start. -/
theorem Knows.holder (knows : task.Knows libraryRoot start registry) {id : String}
    (holds : task.holder = some id) : id ∈ registry.hand ∧ ∃ item ∈ start.items, item.id = id := by
  have held : ∀ {transit : Transit}, Holding libraryRoot start registry transit →
      some transit.item.id = some id → id ∈ registry.hand ∧ ∃ item ∈ start.items, item.id = id := by
    intro transit holding same
    cases same
    exact ⟨holding.hand, transit.item, holding.listed, rfl⟩
  cases task with
  | checked transit | tested transit | sidecars transit rest
  | sidecarTested transit source name rest
  | commit transit | restoring transit | restoringSidecars transit rest => exact held knows.1 holds
  | call _ _ | committed _ | failed _ | succeeded | ended => cases holds

/-- What one step of an approval reaches: its own item, what it has placed, and paths that are
clear. -/
structure Reaches (libraryRoot : Path) (start : Registry) (pool : Pool Registry Approving)
    (task task' : Approving) (next : Registry) : Prop where
  rows : ∀ id, task.holder ≠ some id →
    lookup DropItem.id next.items id = lookup DropItem.id pool.shared.items id
  hand : ∀ id, task.holder ≠ some id → id ∈ pool.shared.hand → id ∈ next.hand
  homes : ∀ item ∈ start.items, task.holder ≠ some item.id → ∀ home ∈ homes item,
    next.disk.tree home = pool.shared.disk.tree home
  library : ∀ path, libraryRoot <+: path → (∀ own ∈ task.placed, Apart own path) →
    (∀ own ∈ task'.placed, Apart own path) →
      next.disk.tree path = pool.shared.disk.tree path
  media : ∀ row ∈ next.media, row ∈ pool.shared.media ∨ row.path ∈ task.placed
  holder : ∀ id, task'.holder = some id → task.holder = some id ∨ id ∉ pool.shared.hand
  placed : ∀ path ∈ task'.placed, path ∈ task.placed ∨ Clear pool path

/-- Other approvals keep what is theirs. -/
theorem Reaches.others (reaches : Reaches libraryRoot start pool task task' next)
    (listed : other ∈ pool.threads) (custody : other.Custody libraryRoot start pool.shared)
    (ours : Separate task other) (theirs : Separate other task) :
    other.Custody libraryRoot start next ∧ Separate task' other ∧ Separate other task' := by
  have apart : ∀ own ∈ task'.placed, ∀ path ∈ other.placed, Apart own path := by
    intro own mine path placed
    rcases reaches.placed own mine with old | clear
    · exact ours.placed own old path placed
    · exact clear.placed other listed path placed
  have differ : ∀ id, task'.holder = some id → other.holder ≠ some id := by
    intro id mine held
    rcases reaches.holder id mine with old | free
    · exact ours.holder id old held
    · exact free (Knows.holder custody.knows held).1
  refine ⟨⟨?_, custody.library, fun path placed row recorded => ?_⟩, ⟨differ, apart⟩,
    ⟨fun id held mine => differ id mine held, fun path placed own mine =>
      (apart own mine path placed).symm⟩⟩
  · have notOurs : ∀ id, other.holder = some id → task.holder ≠ some id := theirs.holder
    refine Knows.frame custody.knows (fun id held => reaches.rows id (notOurs id held))
      (fun id held => reaches.hand id (notOurs id held))
      (fun item stored held => reaches.homes item stored (notOurs _ held)) fun path placed => ?_
    exact reaches.library path (custody.library path placed)
      (fun own mine => ours.placed own mine path placed) fun own mine => apart own mine path placed
  · rcases reaches.media row recorded with old | own
    · exact custody.media path placed row old
    · exact theirs.placed path placed row.path own

end Others

section Carrying

/-- A home of the item and a path in the library, with a disk on which one was moved to the
other. -/
structure Carries (libraryRoot : Path) (start registry : Registry) (item : DropItem)
    (home path : Path) (disk : Disk) : Prop where
  listed : item ∈ start.items
  staged : home ∈ homes item
  library : libraryRoot <+: path
  moved : disk = registry.disk.move home path ∨ disk = registry.disk.move path home

variable {home : Path} {disk : Disk}

section Carried

variable (carries : Carries libraryRoot start registry item home path disk) {other : DropItem}
include carries

theorem Carries.tree {other : Path} (fromHome : Apart home other) (fromPath : Apart path other) :
    disk.tree other = registry.disk.tree other := by
  rcases carries.moved with rfl | rfl
  · exact Files.tree_move_apart fromHome fromPath
  · exact Files.tree_move_apart fromPath fromHome

variable (layout : Layout libraryRoot start) {there : Path}
include layout

theorem Carries.apart : Apart path home :=
  layout.home_library carries.listed carries.staged carries.library

theorem Carries.tree_home (listed : other ∈ start.items)
    (at_ : there ∈ homes other) (differ : item.id ≠ other.id ∨ home ≠ there) :
    disk.tree there = registry.disk.tree there :=
  carries.tree (layout.apart item carries.listed other listed home carries.staged there at_ differ)
    (layout.home_library listed at_ carries.library)

theorem Carries.tree_library {other : Path} (inside : libraryRoot <+: other)
    (apart : Apart path other) : disk.tree other = registry.disk.tree other :=
  carries.tree (layout.home_library carries.listed carries.staged inside).symm apart

theorem Carries.unblocked (listed : other ∈ start.items)
    (at_ : there ∈ homes other) (free : registry.disk.Unblocked there) :
    disk.Unblocked there := by
  rcases carries.moved with rfl | rfl
  · exact free.move (layout.home_library listed at_ carries.library)
  by_cases same : home = there
  · rw [same]
    exact free.move_self
  · exact free.move
      (layout.apart item carries.listed other listed home carries.staged there at_ (.inr same))

theorem Carries.kept (kept : RegistryKept libraryRoot start registry)
    (hand : item.id ∈ registry.hand) (media : ∀ row ∈ registry.media, Apart path row.path) :
    RegistryKept libraryRoot start { registry with disk } where
  __ := kept
  own :=
    { kept.own with
      bytes := fun row recorded => by
        obtain ⟨origin, listed, same, bytes⟩ := kept.own.bytes row recorded
        have unmoved := carries.tree_library layout (kept.library row recorded) (media row recorded)
        exact ⟨origin, listed, same, unmoved.trans bytes⟩ }
  unheld := fun other listed free => by
    refine (kept.unheld other listed free).imp_left fun resting => ⟨resting.row, ?_⟩
    intro there at_
    have differ : item.id ≠ other.id := fun same => free (same ▸ hand)
    exact (carries.tree_home layout listed at_ (.inl differ)).trans (resting.homes there at_)
  unblocked := fun other listed there at_ =>
    carries.unblocked layout listed at_ (kept.unblocked other listed there at_)

end Carried

theorem Carries.reaches (carries : Carries libraryRoot start pool.shared item home path disk)
    (layout : Layout libraryRoot start) (holds : task.holder = some item.id)
    (still : task'.holder = some item.id) (own : path ∈ task.placed ∨ path ∈ task'.placed)
    (placed : ∀ path ∈ task'.placed, path ∈ task.placed ∨ Clear pool path) :
    Reaches libraryRoot start pool task task' { pool.shared with disk } where
  rows _ _ := rfl
  hand _ _ listed := listed
  homes := fun other listed notOurs there at_ => by
    have differ : item.id ≠ other.id := fun same => notOurs (same ▸ holds)
    exact carries.tree_home layout listed at_ (.inl differ)
  library := fun other inside before after => by
    refine carries.tree_library layout inside ?_
    rcases own with old | new
    · exact before path old
    · exact after path new
  media _ recorded := .inl recorded
  holder _ held := .inl (holds.trans (still.symm.trans held))
  placed := placed

end Carrying

section Tables

/-- A step that changes nothing shared. -/
theorem Reaches.idle (holder : ∀ id, task'.holder = some id → task.holder = some id)
    (placed : ∀ path ∈ task'.placed, path ∈ task.placed) :
    Reaches libraryRoot start pool task task' pool.shared where
  rows _ _ := rfl
  hand _ _ listed := listed
  homes _ _ _ _ _ := rfl
  library _ _ _ _ := rfl
  media _ recorded := .inl recorded
  holder id held := .inl (holder id held)
  placed path at_ := .inl (placed path at_)

/-- A step that lets go of its item. -/
theorem Reaches.release (holds : task.holder = some item.id) (free : task'.holder = none)
    (placed : task'.placed = []) :
    Reaches libraryRoot start pool task task' (pool.shared.release item.id) where
  rows _ _ := rfl
  hand := fun id notOurs listed => by
    have differ : id ≠ item.id := fun same => notOurs (same ▸ holds)
    exact mem_filter.2 ⟨listed, decide_eq_true differ⟩
  homes _ _ _ _ _ := rfl
  library _ _ _ _ := rfl
  media _ recorded := .inl recorded
  holder := fun id held => by
    rw [free] at held
    cases held
  placed := fun path at_ => by
    rw [placed] at at_
    cases at_

theorem RegistryKept.release (layout : Layout libraryRoot start)
    (kept : RegistryKept libraryRoot start registry) (listed : item ∈ start.items)
    (resting : Resting start registry item) :
    RegistryKept libraryRoot start (registry.release item.id) where
  __ := kept
  own := { kept.own with }
  unheld := fun other stored free => by
    by_cases same : other.id = item.id
    · rw [layout.only stored listed same]
      exact .inl ⟨resting.row, resting.homes⟩
    · have absent : other.id ∉ registry.hand := fun held =>
        free (mem_filter.2 ⟨held, decide_eq_true same⟩)
      exact (kept.unheld other stored absent).imp_left fun still => ⟨still.row, still.homes⟩

theorem RegistryKept.take (kept : RegistryKept libraryRoot start registry) (itemId : String) :
    RegistryKept libraryRoot start { registry with hand := itemId :: registry.hand } where
  __ := kept
  own := { kept.own with }
  unheld := fun other stored free =>
    (kept.unheld other stored fun held => free (mem_cons_of_mem _ held)).imp_left
      fun still => ⟨still.row, still.homes⟩

end Tables

end Coppice.Ingest
