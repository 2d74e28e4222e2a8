import Coppice.Collections.Containers
import Coppice.Std.Batch

/-!
# What a mutation does to the store

Whatever a call of the service checks on its way, when it succeeds it has done one of
four things: nothing, added a container, rewritten one and its members, or deleted one.
`Call.edit` says so once; results about runs of calls look at edits only.
-/

namespace Coppice.Collections

open Coppice.Std Models
open List hiding lookup

/-- What is done to the members of one container. -/
inductive MemberChange where
  | keep
  | replace (ids : List String)
  | add (start : Nat) (ids : List String)
  | remove (ids : List String)
deriving DecidableEq, Repr

def MemberChange.apply (id : String) (table : ContainerTable) : MemberChange → ContainerTable
  | keep => table
  | replace ids => table.replaceMembers id ids
  | add start ids => table.addMembers id start ids
  | remove ids => table.removeMembers id ids

namespace ContainerStore

/-- A row is added, with its members. -/
def add (store : ContainerStore) (kind : ContainerKind) (row : Container) (change : MemberChange) :
    ContainerStore :=
  store.modify kind fun table => change.apply row.id { table with rows := table.rows ++ [row] }

/-- A row is rewritten in place, and its members change. -/
def rewrite (store : ContainerStore) (kind : ContainerKind) (id : String)
    (f : Container → Container) (change : MemberChange) : ContainerStore :=
  store.modify kind fun table =>
    change.apply id { table with rows := updateAt Container.id id f table.rows }

/-- A row is deleted, and what is left behind for the devices of its user. -/
def bury (store : ContainerStore) (kind : ContainerKind) (id : String)
    (tombstones : List ShelfTombstone) : ContainerStore :=
  { store with tombstones := store.tombstones ++ tombstones }.delete kind id

/-- The number of members of a container, as the next order is computed from it. -/
def memberCount [Host] (store : ContainerStore) (kind : ContainerKind) (id : String) : Nat :=
  (distinctBy (fun id => id) (store.containerMemberIds kind id)).length

end ContainerStore

/-- A call of the service, with the ids it would mint. -/
inductive Call where
  | createCollection (user : Actor) (uuid : String) (input : CollectionCreate)
  | updateCollection (user : Actor) (id : String) (input : CollectionUpdate)
  | deleteCollection (user : Actor) (tombstoneId id : String)
  | createReadList (user : Actor) (uuid : String) (input : ReadListCreate)
  | updateReadList (user : Actor) (id : String) (input : ReadListUpdate)
  | deleteReadList (user : Actor) (tombstoneId id : String)
  | createReadingList (user : Actor) (input : ReadingListInput)
  | createDeviceShelf (user : Actor) (uuid : String) (shelfId : Option String) (name : String)
      (device : Option String)
  | renameShelf (user : Actor) (shelfId name : String) (device : Option String)
  | addShelfItems (user : Actor) (shelfId : String) (bookIds : List String)
      (device : Option String)
  | removeShelfItems (user : Actor) (shelfId : String) (bookIds : List String)
      (device : Option String)
  | deleteShelf (user : Actor) (tombstoneId shelfId : String)
deriving DecidableEq, Repr

/-- The container a call asks for, if it is not there yet; a device is content with a shelf
of the name it gives. -/
def Call.Creates (store : ContainerStore) (kind : ContainerKind) (id : String) : Call → Prop
  | createCollection _ uuid _ => kind = .collection ∧ uuid = id
  | createReadList _ uuid _ => kind = .readingList ∧ uuid = id
  | createReadingList _ input => kind = .readingList ∧ input.id = id
  | createDeviceShelf user uuid shelfId name _ =>
    kind = .collection ∧ (shelfId.filter isUuid).getD uuid = id ∧
      ∀ row ∈ store.collections.rows, row.creatingUserId = user.id ∧ row.koboShelf = true →
        validateName name ≠ .ok row.name
  | _ => False

/-- The container a call removes, if it is there. -/
def Call.Deletes (kind : ContainerKind) (id : String) : Call → Prop
  | deleteCollection _ _ target => kind = .collection ∧ target = id
  | deleteReadList _ _ target => kind = .readingList ∧ target = id
  | deleteShelf _ _ target => target = id
  | _ => False

/-- A rewritten row is the same container, stamped. -/
structure Restamped (now : Int) (old new : Container) : Prop where
  id : new.id = old.id
  creator : new.creatingUserId = old.creatingUserId
  visibility : new.visibility = old.visibility
  koboShelf : new.koboShelf = old.koboShelf
  stamp : new.updatedAt = now

/-- Members are only ever added by a call that asks for it, numbered from the member
count on. -/
def MemberChange.AskedBy [Host] (call : Call) (store : ContainerStore) (kind : ContainerKind)
    (id : String) : MemberChange → Prop
  | add start ids => start = store.memberCount kind id ∧
      ∃ user bookIds device members, call = .addShelfItems user id bookIds device ∧
        store.resolveShelf id = .ok kind ∧ store.shelfMembers kind bookIds = .ok members ∧
        ids = members.filter fun member => member ∉ store.containerMemberIds kind id
  | keep | replace _ | remove _ => True

/-- The members a container is created with are numbered from zero. -/
def MemberChange.Initial : MemberChange → Prop
  | add start _ => start = 0
  | remove _ => False
  | keep | replace _ => True

/-- What a call that succeeded at time `now` may have done. -/
inductive Edit [Host] (call : Call) (now : Int)
    (store : ContainerStore) : ContainerStore → Prop where
  | unchanged : Edit call now store store
  | created (kind : ContainerKind) (row : Container) (change : MemberChange)
      (absent : store.find kind row.id = none) (stamped : row.updatedAt = now)
      (initial : change.Initial) (asked : call.Creates store kind row.id) :
      Edit call now store (store.add kind row change)
  | rewritten (kind : ContainerKind) (id : String) (f : Container → Container)
      (change : MemberChange) (found : (store.find kind id).isSome)
      (restamps : ∀ row, Restamped now row (f row))
      (asked : change.AskedBy call store kind id) :
      Edit call now store (store.rewrite kind id f change)
  | deleted (kind : ContainerKind) (row : Container) (tombstones : List ShelfTombstone)
      (found : store.find kind row.id = some row)
      (left : (∃ id, tombstones = [⟨id, row.creatingUserId, row.id, now⟩]) ∨
        row.koboShelf = false ∧ tombstones = [])
      (asked : call.Deletes kind row.id) :
      Edit call now store (store.bury kind row.id tombstones)

variable {store next : ContainerStore} {kind : ContainerKind} {id owner : String} {now : Int}
  {α : Type}

section Rows

/-- The member rows of a container. -/
def ContainerStore.memberRows (store : ContainerStore) (kind : ContainerKind) (id : String) :
    List Member :=
  (store.table kind).members.filter fun member => member.containerId = id

def ContainerStore.displayOrders (store : ContainerStore) (kind : ContainerKind) (id : String) :
    List Int :=
  (store.memberRows kind id).map Member.displayOrder

/-- What a change leaves of the rows of the container it is made to. -/
def MemberChange.rows (id : String) (rows : List Member) : MemberChange → List Member
  | keep => rows
  | replace ids => numbered id 0 ids
  | add start ids => rows ++ numbered id start ids
  | remove ids => rows.filter fun member => member.memberId ∉ ids

variable {other : String}

theorem numbered_memberIds (start : Nat) (ids : List String) :
    (numbered id start ids).map Member.memberId = ids := by
  unfold numbered
  rw [map_map]
  exact zipIdx_map_fst start ids

theorem numbered_orders (start : Nat) (ids : List String) :
    (numbered id start ids).map Member.displayOrder =
      (range' start ids.length).map fun order : Nat => (order : Int) := by
  unfold numbered
  rw [map_map, ← zipIdx_map_snd start ids, map_map]
  rfl

theorem mem_numbered {start : Nat} {ids : List String} {row : Member}
    (member : row ∈ numbered id start ids) :
    row.containerId = id ∧ row.memberId ∈ ids ∧ (start : Int) ≤ row.displayOrder := by
  obtain ⟨⟨memberId, order⟩, listed, rfl⟩ := mem_map.mp member
  have position := mem_zipIdx listed
  refine ⟨rfl, fst_mem_of_mem_zipIdx listed, ?_⟩
  simp only
  omega

theorem numbered_strict (start : Nat) (ids : List String) :
    (numbered id start ids).Pairwise fun left right => left.displayOrder < right.displayOrder := by
  rw [← pairwise_map (R := (· < ·)), numbered_orders, pairwise_map]
  have rising := pairwise_lt_range' (s := start) (n := ids.length)
  exact rising.imp fun below => by exact_mod_cast below

theorem filter_numbered (start : Nat) (ids : List String) :
    ((numbered id start ids).filter fun member => member.containerId = other) =
      if other = id then numbered id start ids else [] := by
  split
  · rename_i mine
    exact filter_eq_self.mpr fun _ member => by simpa [mine] using (mem_numbered member).1
  · rename_i differ
    exact filter_eq_nil_iff.mpr fun _ member => by
      simpa [(mem_numbered member).1] using Ne.symm differ

variable (change : MemberChange) (table : ContainerTable)

theorem MemberChange.apply_members :
    ((change.apply id table).members.filter fun member => member.containerId = other) =
      if other = id then change.rows id (table.members.filter fun member => member.containerId = id)
      else table.members.filter fun member => member.containerId = other := by
  cases change with
  | keep => by_cases mine : other = id <;> simp [apply, rows, mine]
  | replace ids =>
    simp only [apply, ContainerTable.replaceMembers, filter_append, filter_numbered, filter_removed]
    by_cases mine : other = id <;> simp [rows, mine]
  | add start ids =>
    simp only [apply, ContainerTable.addMembers, filter_append, filter_numbered]
    by_cases mine : other = id <;> simp [rows, mine]
  | remove ids =>
    simp only [apply, ContainerTable.removeMembers, rows, filter_filter]
    by_cases mine : other = id
    · subst mine
      rw [if_pos rfl]
      refine filter_congr fun member _ => ?_
      by_cases own : member.containerId = other <;> simp [own]
    · rw [if_neg mine]
      refine filter_congr fun member _ => ?_
      by_cases own : member.containerId = other <;> simp [own, mine]

theorem MemberChange.apply_rows : (change.apply id table).rows = table.rows := by
  cases change <;> rfl

end Rows

section Tables

variable {other : ContainerKind} {listId : String}

theorem table_modify (f : ContainerTable → ContainerTable) :
    (store.modify kind f).table other =
      if other = kind then f (store.table kind) else store.table other := by
  cases kind <;> cases other <;> rfl

/-- One container has got another row, or none, and other members, and left tombstones;
every other container is as it was. -/
structure Sets (kind : ContainerKind) (id : String) (row : Option Container) (listed : List Member)
    (left : List ShelfTombstone) (store next : ContainerStore) : Prop where
  find : ∀ other x, next.find other x = if other = kind ∧ x = id then row else store.find other x
  members : ∀ other x, next.memberRows other x =
    if other = kind ∧ x = id then listed else store.memberRows other x
  distinct : ∀ other, ((store.table other).rows.map Container.id).Nodup →
    ((next.table other).rows.map Container.id).Nodup
  rules : ∀ x, ¬(kind = .readingList ∧ x = id) →
    (next.rules.filter fun rule => rule.readingListId = x) =
      store.rules.filter fun rule => rule.readingListId = x
  books : next.books = store.books
  tombstones : next.tombstones = store.tombstones ++ left

/-- A change of one table sets a container. -/
theorem sets_modify {f : ContainerTable → ContainerTable} {row : Option Container}
    {listed : List Member}
    (find : ∀ x, lookup Container.id (f (store.table kind)).rows x =
      if x = id then row else store.find kind x)
    (members : ∀ x, ((f (store.table kind)).members.filter fun member => member.containerId = x) =
      if x = id then listed else store.memberRows kind x)
    (distinct : ((store.table kind).rows.map Container.id).Nodup →
      ((f (store.table kind)).rows.map Container.id).Nodup) :
    Sets kind id row listed [] store (store.modify kind f) where
  find other x := by
    rw [ContainerStore.find, table_modify]
    by_cases same : other = kind
    · simp [same, find]
    · simp [same, ContainerStore.find]
  members other x := by
    rw [ContainerStore.memberRows, table_modify]
    by_cases same : other = kind
    · simp [same, members]
    · simp [same, ContainerStore.memberRows]
  distinct other before := by
    rw [table_modify]
    split
    · rename_i same
      exact distinct (same ▸ before)
    · exact before
  rules _ _ := by cases kind <;> rfl
  books := by cases kind <;> rfl
  tombstones := by cases kind <;> exact (append_nil _).symm

theorem sets_add {row : Container} (change : MemberChange)
    (absent : store.find kind row.id = none) :
    Sets kind row.id (some row) (change.rows row.id (store.memberRows kind row.id)) [] store
      (store.add kind row change) := by
  refine sets_modify (fun x => ?_) (fun x => change.apply_members _) fun before => ?_
  · rw [MemberChange.apply_rows, Std.lookup_append]
    by_cases mine : x = row.id
    · subst mine
      rw [if_pos rfl, show lookup Container.id (store.table kind).rows row.id = none from absent]
      simp [lookup]
    · simp [lookup, mine, Ne.symm mine, ContainerStore.find]
  · rw [MemberChange.apply_rows]
    exact nodup_added before absent

theorem sets_rewrite {f : Container → Container} (change : MemberChange)
    (keeps : ∀ row, (f row).id = row.id) :
    Sets kind id ((store.find kind id).map f) (change.rows id (store.memberRows kind id)) [] store
      (store.rewrite kind id f change) := by
  have keyed : ∀ row : Container, row.id = id → (f row).id = id := fun row named => by
    rw [keeps, named]
  refine sets_modify (fun x => ?_) (fun x => change.apply_members _) fun before => ?_
  · rw [MemberChange.apply_rows, lookup_updateAt keyed]
    rfl
  · rw [MemberChange.apply_rows, map_key_updateAt keyed]
    exact before

theorem sets_bury (tombstones : List ShelfTombstone) :
    Sets kind id none [] tombstones store (store.bury kind id tombstones) := by
  have deleted : Sets kind id none [] [] store (store.modify kind (·.deleteById id)) := by
    refine sets_modify (fun x => ?_) (fun x => filter_removed) fun before =>
      before.sublist (filter_sublist.map _)
    rw [ContainerTable.deleteById, ContainerStore.find, lookup_eq_head?, lookup_eq_head?,
      filter_removed]
    split <;> rfl
  have tables : (store.bury kind id tombstones).table =
      (store.modify kind (·.deleteById id)).table := by
    funext other
    cases kind <;> cases other <;> rfl
  refine ⟨fun other x => ?_, fun other x => ?_, fun other => ?_, fun x apart => ?_, ?_, ?_⟩
  · rw [← deleted.find, ContainerStore.find, tables, ContainerStore.find]
  · rw [← deleted.members, ContainerStore.memberRows, tables, ContainerStore.memberRows]
  · rw [tables]
    exact deleted.distinct other
  · cases kind with
    | collection => rfl
    | readingList => exact filter_removed.trans (if_neg fun same => apart ⟨rfl, same⟩)
  · cases kind <;> rfl
  · cases kind <;> rfl

theorem memberRows_rewrite (f : Container → Container) (change : MemberChange) :
    (store.rewrite kind id f change).memberRows kind id =
      change.rows id (store.memberRows kind id) := by
  rw [ContainerStore.memberRows, ContainerStore.rewrite, table_modify, if_pos rfl,
    MemberChange.apply_members, if_pos rfl]
  rfl

end Tables

section Store

variable {row : Container} {name device : Option String}

theorem ContainerStore.modify_modify (f g : ContainerTable → ContainerTable) :
    (store.modify kind f).modify kind g = store.modify kind fun table => g (f table) := by
  cases kind <;> rfl

theorem ContainerStore.find_id (found : store.find kind id = some row) : row.id = id :=
  lookup_key found

theorem insert_ok (inserted : store.insert kind row = .ok next) :
    store.find kind row.id = none ∧
      next = store.modify kind fun table => { table with rows := table.rows ++ [row] } := by
  unfold ContainerStore.insert at inserted
  split at inserted
  · cases inserted
  · rename_i absent
    cases inserted
    exact ⟨absent, rfl⟩

theorem touch_ok (touched : store.touch kind now id name device = .ok next) :
    (store.find kind id).isSome ∧
      ∃ f, (∀ row, Restamped now row (f row)) ∧ next = store.rewrite kind id f .keep := by
  unfold ContainerStore.touch at touched
  split at touched
  · cases touched
  rename_i found
  cases touched
  exact ⟨by simp [found], Container.touched now name device,
    fun row => ⟨rfl, rfl, rfl, rfl, rfl⟩, rfl⟩

/-- Members first and the stamp after, as one rewrite. -/
theorem touch_changed_ok (change : MemberChange)
    (touched : (store.modify kind (change.apply id ·)).touch kind now id name device = .ok next) :
    (store.find kind id).isSome ∧
      ∃ f, (∀ row, Restamped now row (f row)) ∧ next = store.rewrite kind id f change := by
  obtain ⟨found, f, restamps, rfl⟩ := touch_ok touched
  refine ⟨?_, f, restamps, ?_⟩
  · have same : (store.modify kind (change.apply id ·)).find kind id = store.find kind id := by
      unfold ContainerStore.find
      rw [table_modify, if_pos rfl, MemberChange.apply_rows]
    rwa [same] at found
  unfold ContainerStore.rewrite
  rw [ContainerStore.modify_modify]
  cases change <;> rfl

theorem shelfOwnerId_ok (owned : store.shelfOwnerId kind id = .ok owner) :
    ∃ row, store.find kind id = some row ∧ row.creatingUserId = owner := by
  unfold ContainerStore.shelfOwnerId at owned
  split at owned
  · rename_i row found
    cases owned
    exact ⟨row, found, rfl⟩
  · cases owned

theorem elim_ok {error : CoreError} {found : Option α} {value : α}
    (present : found.elim (.error error) Except.ok = Except.ok value) : found = some value := by
  cases found with
  | none => cases present
  | some other => exact congrArg some (Except.ok.inj present)

end Store

section Calls

variable [Host] {user : Actor} {call : Call} {uuid name shelfId tombstoneId : String}
  {bookIds memberIds : List String} {model : Container}

theorem createContainer_ok {summary : Option String} {ordered : Bool}
    (created : store.createContainer user now kind uuid name summary ordered memberIds =
      .ok (next, model)) (asked : call.Creates store kind uuid) : Edit call now store next := by
  simp only [ContainerStore.createContainer, bind_eq_ok] at created
  obtain ⟨name, -, -, -, -, -, inserted, insertion, result⟩ := created
  obtain ⟨absent, rfl⟩ := insert_ok insertion
  cases result
  rw [ContainerStore.modify_modify]
  exact .created kind _ (.replace memberIds) absent rfl trivial asked

theorem updateContainer_ok {input : ContainerUpdate}
    (updated : store.updateContainer user now kind id input = .ok (next, memberIds)) :
    Edit call now store next := by
  simp only [ContainerStore.updateContainer, bind_eq_ok] at updated
  obtain ⟨model, present, -, -, -, -, name, -, result⟩ := updated
  obtain ⟨rfl, -⟩ := Prod.mk.inj (Except.ok.inj result)
  have found : (store.find kind id).isSome := by simp [elim_ok present]
  have restamps : ∀ row, Restamped now row (input.applyTo now name row) :=
    fun row => ⟨rfl, rfl, rfl, rfl, rfl⟩
  cases input.memberIds with
  | none => exact .rewritten kind id _ .keep found restamps trivial
  | some ids =>
    simp only [ContainerStore.modify_modify]
    exact .rewritten kind id _ (.replace ids) found restamps trivial

theorem deleteContainer_ok
    (deleted : store.deleteContainer user now kind tombstoneId id = .ok (next, memberIds))
    (asked : call.Deletes kind id) :
    Edit call now store next := by
  simp only [ContainerStore.deleteContainer, bind_eq_ok] at deleted
  obtain ⟨model, present, -, -, result⟩ := deleted
  have found := elim_ok present
  obtain rfl := ContainerStore.find_id found
  obtain ⟨rfl, -⟩ := Prod.mk.inj (Except.ok.inj result)
  split
  · exact .deleted kind model _ found (.inl ⟨tombstoneId, rfl⟩) asked
  rename_i plain
  have same : store.delete kind model.id = store.bury kind model.id [] := by
    simp [ContainerStore.bury]
  rw [same]
  exact .deleted kind model [] found (.inr ⟨by simpa using plain, rfl⟩) asked

theorem createReadingList_ok {input : ReadingListInput}
    (created : store.createReadingList user now input = .ok (next, model)) :
    Edit (.createReadingList user input) now store next := by
  simp only [ContainerStore.createReadingList, bind_eq_ok] at created
  obtain ⟨inserted, insertion, -, -, result⟩ := created
  obtain ⟨absent, rfl⟩ := insert_ok insertion
  cases result
  exact .created .readingList _ (.add 0 input.mediaIds) absent rfl rfl ⟨rfl, rfl⟩

theorem createDeviceShelf_ok {shelfId : Option String}
    (created : store.createDeviceShelf user now uuid shelfId name device = .ok (next, model)) :
    Edit (.createDeviceShelf user uuid shelfId name device) now store next := by
  simp only [ContainerStore.createDeviceShelf, bind_eq_ok] at created
  obtain ⟨valid, validated, shelf⟩ := created
  split at shelf
  · split at shelf
    · cases shelf
      exact .unchanged
    · cases shelf
  split at shelf
  · cases shelf
    exact .unchanged
  rename_i unnamed
  obtain ⟨inserted, insertion, result⟩ := bind_eq_ok.mp shelf
  obtain ⟨absent, rfl⟩ := insert_ok insertion
  cases result
  refine .created .collection _ .keep absent rfl trivial ⟨rfl, ?_, fun row stored mine same => ?_⟩
  · cases shelfId with
    | none => rfl
    | some id => by_cases own : isUuid id = true <;> simp [Option.filter, own]
  · obtain rfl := Except.ok.inj (validated.symm.trans same)
    have none := Host.scan_perm (store.collections.rows.filter fun other =>
      other.creatingUserId = user.id ∧ other.koboShelf ∧ other.name = row.name)
    rw [head?_eq_none_iff.mp unnamed] at none
    have named := filter_eq_nil_iff.mp none.nil_eq.symm row stored
    simp [mine] at named

omit [Host] in
theorem writableShelf_ok
    (writable : store.writableShelf user shelfId = .ok (kind, owner)) :
    store.resolveShelf shelfId = .ok kind := by
  simp only [ContainerStore.writableShelf, bind_eq_ok] at writable
  obtain ⟨resolved, resolution, owner, -, -, -, result⟩ := writable
  cases result
  exact resolution

theorem renameShelf_ok (renamed : store.renameShelf user now shelfId name device = .ok next) :
    Edit call now store next := by
  simp only [ContainerStore.renameShelf, bind_eq_ok] at renamed
  obtain ⟨name, -, ⟨kind, owner⟩, -, touched⟩ := renamed
  obtain ⟨found, f, restamps, rfl⟩ := touch_ok touched
  exact .rewritten kind shelfId f .keep found restamps trivial

theorem addShelfItems_ok (added : store.addShelfItems user now shelfId bookIds device = .ok next) :
    ∃ kind members f, store.resolveShelf shelfId = .ok kind ∧
      store.shelfMembers kind bookIds = .ok members ∧ (store.find kind shelfId).isSome ∧
      (∀ row, Restamped now row (f row)) ∧
      next = store.rewrite kind shelfId f (.add (store.memberCount kind shelfId)
        (members.filter fun id => id ∉ store.containerMemberIds kind shelfId)) := by
  simp only [ContainerStore.addShelfItems, bind_eq_ok] at added
  obtain ⟨-, -, -, -, ⟨kind, owner⟩, writable, members, stands, -, -, touched⟩ := added
  obtain ⟨found, f, restamps, rfl⟩ := touch_changed_ok
    (.add (store.memberCount kind shelfId)
      (members.filter fun id => id ∉ store.containerMemberIds kind shelfId)) touched
  exact ⟨kind, members, f, writableShelf_ok writable, stands, found, restamps, rfl⟩

theorem removeShelfItems_ok
    (removed : store.removeShelfItems user now shelfId bookIds device = .ok next) :
    Edit call now store next := by
  simp only [ContainerStore.removeShelfItems, bind_eq_ok] at removed
  obtain ⟨⟨kind, owner⟩, -, touched⟩ := removed
  obtain ⟨found, f, restamps, rfl⟩ := touch_changed_ok (.remove _) touched
  exact .rewritten kind shelfId f _ found restamps trivial

theorem deleteShelf_ok
    (deleted : store.deleteShelf user now tombstoneId shelfId = .ok (next, kind, memberIds)) :
    Edit (.deleteShelf user tombstoneId shelfId) now store next := by
  simp only [ContainerStore.deleteShelf, bind_eq_ok] at deleted
  obtain ⟨resolved, -, owner, owned, -, -, result⟩ := deleted
  obtain ⟨row, found, rfl⟩ := shelfOwnerId_ok owned
  obtain rfl := ContainerStore.find_id found
  cases result
  exact .deleted kind row _ found (.inl ⟨tombstoneId, rfl⟩) rfl

end Calls

namespace Call

variable [Host]

/-- The store after a call that succeeds. -/
def run (store : ContainerStore) (now : Int) : Call → Except CoreError ContainerStore
  | createCollection user uuid input => Prod.fst <$> store.createCollection user now uuid input
  | updateCollection user id input => Prod.fst <$> store.updateCollection user now id input
  | deleteCollection user tombstoneId id =>
    Prod.fst <$> store.deleteCollection user now tombstoneId id
  | createReadList user uuid input => Prod.fst <$> store.createReadList user now uuid input
  | updateReadList user id input => Prod.fst <$> store.updateReadList user now id input
  | deleteReadList user tombstoneId id => Prod.fst <$> store.deleteReadList user now tombstoneId id
  | createReadingList user input => Prod.fst <$> store.createReadingList user now input
  | createDeviceShelf user uuid shelfId name device =>
    Prod.fst <$> store.createDeviceShelf user now uuid shelfId name device
  | renameShelf user shelfId name device => store.renameShelf user now shelfId name device
  | addShelfItems user shelfId bookIds device => store.addShelfItems user now shelfId bookIds device
  | removeShelfItems user shelfId bookIds device =>
    store.removeShelfItems user now shelfId bookIds device
  | deleteShelf user tombstoneId shelfId =>
    Prod.fst <$> store.deleteShelf user now tombstoneId shelfId

omit [Host] in
theorem map_ok {answer : Except CoreError (ContainerStore × α)}
    (mapped : Prod.fst <$> answer = .ok next) : ∃ value, answer = .ok (next, value) := by
  cases answer with
  | error refusal => cases mapped
  | ok result => exact ⟨result.2, congrArg Except.ok (by cases mapped; rfl)⟩

/-- Every call that succeeds is an edit. -/
theorem edit {call : Call} (accepted : call.run store now = .ok next) :
    Edit call now store next := by
  cases call with
  | createCollection user uuid input | createReadList user uuid input =>
    obtain ⟨model, created⟩ := map_ok accepted
    exact createContainer_ok created ⟨rfl, rfl⟩
  | updateCollection user id input | updateReadList user id input =>
    obtain ⟨memberIds, updated⟩ := map_ok accepted
    exact updateContainer_ok updated
  | deleteCollection user tombstoneId id | deleteReadList user tombstoneId id =>
    obtain ⟨memberIds, deleted⟩ := map_ok accepted
    exact deleteContainer_ok deleted ⟨rfl, rfl⟩
  | createReadingList user input =>
    obtain ⟨model, created⟩ := map_ok accepted
    exact createReadingList_ok created
  | createDeviceShelf user uuid shelfId name device =>
    obtain ⟨model, created⟩ := map_ok accepted
    exact createDeviceShelf_ok created
  | renameShelf user shelfId name device => exact renameShelf_ok accepted
  | addShelfItems user shelfId bookIds device =>
    obtain ⟨kind, members, f, resolved, stands, found, restamps, rfl⟩ :=
      addShelfItems_ok accepted
    exact .rewritten kind shelfId f _ found restamps
      ⟨rfl, user, bookIds, device, members, rfl, resolved, stands, rfl⟩
  | removeShelfItems user shelfId bookIds device => exact removeShelfItems_ok accepted
  | deleteShelf user tombstoneId shelfId =>
    obtain ⟨⟨kind, memberIds⟩, deleted⟩ := map_ok accepted
    exact deleteShelf_ok deleted

end Call
end Coppice.Collections
