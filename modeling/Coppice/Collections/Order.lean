import Coppice.Collections.Edits
import Coppice.Std.System

/-!
# The order of a reading list

Members are read back by `display_order`, and an added book gets the member count as its
order. As long as every order in use lies below the count, added books come last; a
removal leaves the orders of the rest as they are, and the count falls below them.
-/

namespace Coppice.Collections

open Coppice.Std Models List

theorem numbered_nodup (id : String) (start : Nat) (ids : List String) :
    ((numbered id start ids).map Member.displayOrder).Nodup :=
  pairwise_map.mpr ((numbered_strict start ids).imp ne_of_lt)

variable {store next : ContainerStore}

section Add

variable [Host] {listId : String} {bookIds : List String} {kind : ContainerKind}

/-- The books an `add_shelf_items` call adds to a reading list. -/
def ContainerStore.newBooks (store : ContainerStore) (listId : String) (bookIds : List String) :
    List String :=
  bookIds.filter fun id => id ∉ store.containerMemberIds .readingList listId

/-- The call adds nothing, or every order in use lies below the member count. -/
def ContainerStore.Appendable (store : ContainerStore) (listId : String) (bookIds : List String) :
    Prop :=
  store.newBooks listId bookIds = [] ∨
    ∀ order ∈ store.displayOrders .readingList listId,
      order < store.memberCount .readingList listId

/-- The members of a list read back, and their rows. -/
theorem containerMemberIds_eq :
    store.containerMemberIds kind listId =
      (orderBy Member.displayOrder (Host.scan (store.memberRows kind listId))).map
        Member.memberId := rfl

theorem containerMemberIds_perm :
    (store.containerMemberIds kind listId).Perm
      ((store.memberRows kind listId).map Member.memberId) :=
  ((orderBy_perm Member.displayOrder _).trans (Host.scan_perm _)).map _

theorem mem_containerMemberIds {memberId : String} :
    memberId ∈ store.containerMemberIds .readingList listId ↔
      ∃ row ∈ store.memberRows .readingList listId, row.memberId = memberId := by
  rw [containerMemberIds_perm.mem_iff, mem_map]

/-- The rows a call adds. -/
theorem memberRows_addShelfItems {user : Actor} {now : Int} {device : Option String}
    (added : store.addShelfItems user now listId bookIds device = .ok next)
    (list : store.resolveShelf listId = .ok .readingList) :
    next.memberRows .readingList listId = store.memberRows .readingList listId ++
      numbered listId (store.memberCount .readingList listId) (store.newBooks listId bookIds) := by
  obtain ⟨kind, members, f, resolved, stands, -, -, rfl⟩ := addShelfItems_ok added
  obtain rfl := Except.ok.inj (resolved.symm.trans list)
  obtain rfl := Except.ok.inj stands
  exact memberRows_rewrite _ _

theorem orderBy_memberRows (distinct : (store.displayOrders .readingList listId).Nodup) :
    (orderBy Member.displayOrder (Host.scan (store.memberRows .readingList listId))).Pairwise
      fun left right => left.displayOrder < right.displayOrder :=
  orderBy_strict Member.displayOrder (((Host.scan_perm _).map _).nodup_iff.mpr distinct)

theorem unlisted_of_newBooks {bookId : String} (new : bookId ∈ store.newBooks listId bookIds) :
    bookId ∉ store.containerMemberIds .readingList listId := by
  simpa using (mem_filter.mp new).2

/-- New rows get orders above those in use. -/
theorem ContainerStore.Appendable.below (appendable : store.Appendable listId bookIds)
    {left right : Member} (stored : left ∈ store.memberRows .readingList listId)
    (added : right ∈ numbered listId (store.memberCount .readingList listId)
      (store.newBooks listId bookIds)) : left.displayOrder < right.displayOrder := by
  obtain ⟨-, named, start⟩ := mem_numbered added
  rcases appendable with nothing | bounded
  · simp [nothing] at named
  · exact lt_of_lt_of_le (bounded _ (mem_map_of_mem stored)) start

theorem nodup_of_appendable (distinct : (store.displayOrders .readingList listId).Nodup)
    (appendable : store.Appendable listId bookIds) :
    ((store.memberRows .readingList listId ++ numbered listId
      (store.memberCount .readingList listId) (store.newBooks listId bookIds)).map
        Member.displayOrder).Nodup := by
  rw [map_append, nodup_append]
  refine ⟨distinct, numbered_nodup _ _ _, ?_⟩
  intro old used new numbers
  obtain ⟨left, stored, rfl⟩ := mem_map.mp used
  obtain ⟨right, added, rfl⟩ := mem_map.mp numbers
  exact (appendable.below stored added).ne

variable (rows : next.memberRows .readingList listId = store.memberRows .readingList listId ++
  numbered listId (store.memberCount .readingList listId) (store.newBooks listId bookIds))
include rows

/-- Where the count lies above every order, new rows go behind the old ones. -/
theorem readBack_of_appendable (distinct : (store.displayOrders .readingList listId).Nodup)
    (appendable : store.Appendable listId bookIds) :
    next.containerMemberIds .readingList listId =
      store.containerMemberIds .readingList listId ++ store.newBooks listId bookIds := by
  have old := (orderBy_perm Member.displayOrder _).trans
    (Host.scan_perm (store.memberRows .readingList listId))
  have strict := pairwise_append.mpr
    ⟨orderBy_memberRows distinct, numbered_strict (store.memberCount .readingList listId)
      (store.newBooks listId bookIds), fun left stored right added =>
        appendable.below (old.mem_iff.mp stored) added⟩
  have same := (old.append_right (numbered listId (store.memberCount .readingList listId)
    (store.newBooks listId bookIds))).trans (Host.scan_perm _).symm
  rw [containerMemberIds_eq, rows, orderBy_eq Member.displayOrder same strict, map_append,
    numbered_memberIds]
  rfl

/-- New rows behind the old ones, with orders apart: the count lies above every order. -/
theorem appendable_of_readBack (distinct : (next.displayOrders .readingList listId).Nodup)
    (readBack : next.containerMemberIds .readingList listId =
      store.containerMemberIds .readingList listId ++ store.newBooks listId bookIds) :
    store.Appendable listId bookIds := by
  cases books : store.newBooks listId bookIds with
  | nil => exact .inl books
  | cons first rest =>
    refine .inr fun order used => ?_
    obtain ⟨row, stored, rfl⟩ := mem_map.mp used
    have newRow : (⟨store.memberCount .readingList listId, first, listId⟩ : Member) ∈
        next.memberRows .readingList listId := by
      rw [rows, books]
      exact mem_append_right _ (by simp [numbered])
    have oldRow : row ∈ next.memberRows .readingList listId := by
      rw [rows]
      exact mem_append_left _ stored
    -- the sorted rows split where the ids read back do
    rw [containerMemberIds_eq] at readBack
    obtain ⟨before, after, split, beforeIds, afterIds⟩ := map_eq_append_iff.mp readBack
    have side : ∀ row ∈ next.memberRows .readingList listId, row ∈ before ∨ row ∈ after := by
      intro row stored
      rw [← mem_append, ← split]
      exact (mem_orderBy _).mpr (Kobo.mem_scan.mpr stored)
    have early : row ∈ before := by
      refine (side row oldRow).resolve_right fun late => ?_
      have listed : row.memberId ∈ store.newBooks listId bookIds :=
        afterIds ▸ mem_map_of_mem late
      exact unlisted_of_newBooks listed (mem_containerMemberIds.mpr ⟨row, stored, rfl⟩)
    have late : (⟨store.memberCount .readingList listId, first, listId⟩ : Member) ∈ after := by
      refine (side _ newRow).resolve_left fun early => ?_
      have listed := mem_map_of_mem (f := Member.memberId) early
      rw [beforeIds] at listed
      exact unlisted_of_newBooks (books ▸ mem_cons_self) listed
    have sorted := orderBy_memberRows distinct
    rw [split] at sorted
    exact (pairwise_append.mp sorted).2.2 row early _ late

end Add

section System

variable {kind : ContainerKind} {change : MemberChange} {call : Call} {now : Int}

/-- The orders of every reading list are pairwise distinct, and no member outlives its
list. -/
structure Ordered (store : ContainerStore) : Prop where
  distinct : ∀ listId, (store.displayOrders .readingList listId).Nodup
  owned : ∀ listId, store.find .readingList listId = none →
    store.memberRows .readingList listId = []

theorem MemberChange.Initial.nodup (initial : change.Initial) (id : String) :
    ((change.rows id []).map Member.displayOrder).Nodup := by
  cases change with
  | keep | remove ids => exact nodup_nil
  | replace ids => exact numbered_nodup id 0 ids
  | add start ids => exact numbered_nodup id start ids

/-- Lists stay ordered when one container is set whose members are. -/
theorem Ordered.of_sets (ordered : Ordered store) {id : String} {written : Option Container}
    {listed : List Member} {left : List ShelfTombstone}
    (sets : Sets kind id written listed left store next)
    (distinct : kind = .readingList → (listed.map Member.displayOrder).Nodup)
    (owned : kind = .readingList → written = none → listed = []) : Ordered next where
  distinct listId := by
    rw [ContainerStore.displayOrders, sets.members]
    split
    · rename_i mine
      exact distinct mine.1.symm
    · exact ordered.distinct listId
  owned listId missing := by
    rw [sets.find] at missing
    rw [sets.members]
    split
    · rename_i mine
      exact owned mine.1.symm ((if_pos mine).symm.trans missing)
    · rename_i apart
      exact ordered.owned listId ((if_neg apart).symm.trans missing)

variable [Host]

/-- An addition to a reading list finds the orders below the member count. -/
def Call.Dense (store : ContainerStore) : Call → Prop
  | .addShelfItems _ shelfId bookIds _ =>
    store.resolveShelf shelfId = .ok .readingList → store.Appendable shelfId bookIds
  | _ => True

/-- Calls of the service on a store without reading lists at first. -/
def orderSystem (guard : ContainerStore → Call → Prop) : System ContainerStore where
  Initial store := store.readingLists = ⟨[], []⟩
  Step store next := ∃ call now, guard store call ∧ call.run store now = .ok next

theorem Ordered.edit (ordered : Ordered store) (dense : call.Dense store)
    (edit : Edit call now store next) : Ordered next := by
  cases edit with
  | unchanged => exact ordered
  | created kind row change absent stamped initial =>
    refine ordered.of_sets (sets_add change absent) ?_ (by simp)
    rintro rfl
    rw [ordered.owned _ absent]
    exact initial.nodup row.id
  | rewritten kind id f change found restamps asked =>
    refine ordered.of_sets (sets_rewrite change fun row => (restamps row).id) ?_ fun _ missing => ?_
    · rintro rfl
      have before := ordered.distinct id
      cases change with
      | keep => exact before
      | replace ids => exact numbered_nodup id 0 ids
      | remove ids => exact before.sublist (filter_sublist.map _)
      | add start ids =>
        obtain ⟨rfl, user, bookIds, device, members, rfl, resolved, stands, rfl⟩ := asked
        obtain rfl := Except.ok.inj stands
        exact nodup_of_appendable before (dense resolved)
    · simp [Option.map_eq_none_iff.mp missing] at found
  | deleted kind row tombstones found left =>
    exact ordered.of_sets (sets_bury tombstones) (fun _ => nodup_nil) fun _ _ => rfl

theorem ordered_of_reachable (reachable : (orderSystem Call.Dense).Reachable store) :
    Ordered store := by
  refine reachable.invariant ?_ ?_
  · intro store empty
    have rows : ∀ listId, store.memberRows .readingList listId = [] := by
      simp [ContainerStore.memberRows, ContainerStore.table, show store.readingLists = _ from empty]
    exact ⟨fun listId => by simp [ContainerStore.displayOrders, rows], fun listId _ => rows listId⟩
  · rintro store next ordered ⟨call, now, dense, accepted⟩
    exact ordered.edit dense (Call.edit accepted)

/-- In every run whose additions each find the orders of the list below its member count:
the orders of every reading list are pairwise distinct, and the next addition, whatever it
is, keeps them so and reads back as the members before it followed by the new books in the
order given, exactly when it finds the orders below the count or adds nothing. -/
theorem reading_list_order (reachable : (orderSystem Call.Dense).Reachable store)
    (listId : String) :
    (store.displayOrders .readingList listId).Nodup ∧
      ∀ user now bookIds device, store.resolveShelf listId = .ok .readingList →
        store.addShelfItems user now listId bookIds device = .ok next →
        ((next.displayOrders .readingList listId).Nodup ∧
            next.containerMemberIds .readingList listId =
              store.containerMemberIds .readingList listId ++
                bookIds.filter (fun id => id ∉ store.containerMemberIds .readingList listId) ↔
          store.Appendable listId bookIds) := by
  have ordered := ordered_of_reachable reachable
  refine ⟨ordered.distinct listId, fun user now bookIds device list added => ?_⟩
  have rows := memberRows_addShelfItems added list
  constructor
  · rintro ⟨distinct, readBack⟩
    exact appendable_of_readBack rows distinct readBack
  intro appendable
  refine ⟨?_, readBack_of_appendable rows (ordered.distinct listId) appendable⟩
  unfold ContainerStore.displayOrders
  rw [rows]
  exact nodup_of_appendable (ordered.distinct listId) appendable

end System

section Sample

local instance orderHost : Host := Host.sample

/-- A user who sees everything. -/
def sampleLister : Actor := ⟨⟨[], none, none⟩, "lister", false⟩

def sampleVolume (id : String) : Book :=
  ⟨⟨id, "epub", "library", none, none, 0, none, none⟩, id, some "saga"⟩

/-- Four books of one series and no containers. -/
def sampleVolumes : ContainerStore :=
  ⟨⟨[], []⟩, ⟨[], []⟩, [], [], ["a", "b", "c", "d"].map sampleVolume,
    [⟨"saga", "library", none, none⟩]⟩

def sampleListing (bookIds : List String) : Call :=
  .createReadList sampleLister "list" ⟨"To read", none, true, bookIds⟩

/-- After the first two of three books were removed, an added book comes before the third;
after the first was removed, it gets the order of the third. -/
theorem removal_disorders_reading_list :
    (∃ store next, (orderSystem fun _ _ => True).Reachable store ∧
      store.addShelfItems sampleLister 3 "list" ["d"] none = .ok next ∧
      store.containerMemberIds .readingList "list" = ["c"] ∧
      next.containerMemberIds .readingList "list" = ["d", "c"]) ∧
    ∃ store, (orderSystem fun _ _ => True).Reachable store ∧
      store.displayOrders .readingList "list" = [1, 2, 2] := by
  have start : (orderSystem fun _ _ => True).Reachable sampleVolumes := .initial rfl
  have listed := start.step ⟨sampleListing ["a", "b", "c"], 1, trivial, rfl⟩
  have emptied := listed.step ⟨.removeShelfItems sampleLister "list" ["a", "b"] none,
    2, trivial, rfl⟩
  have thinned := listed.step ⟨.removeShelfItems sampleLister "list" ["a"] none, 2, trivial, rfl⟩
  have grown := thinned.step ⟨.addShelfItems sampleLister "list" ["d"] none, 3, trivial, rfl⟩
  exact ⟨⟨_, _, emptied, rfl, by decide, by decide⟩, _, grown, by decide⟩

/-- A book added to a fresh list comes last. -/
theorem reading_list_order_sample :
    ∃ store next, (orderSystem Call.Dense).Reachable store ∧
      store.addShelfItems sampleLister 2 "list" ["d", "a"] none = .ok next ∧
      next.containerMemberIds .readingList "list" =
        store.containerMemberIds .readingList "list" ++ ["d"] := by
  have start : (orderSystem Call.Dense).Reachable sampleVolumes := .initial rfl
  have listed := start.step ⟨sampleListing ["a", "b", "c"], 1, trivial, rfl⟩
  refine ⟨_, _, listed, rfl, ?_⟩
  exact (((reading_list_order listed "list").2 sampleLister 2 ["d", "a"] none rfl rfl).mpr
    (.inr (by decide))).2

end Sample

end Coppice.Collections
