import Mathlib.Data.Finset.Card
import Coppice.Collections.Order

/-!
# Books on a collection shelf

A book stands on a collection shelf as its series. An addition compares the number of the series
with the number of the books, and numbers the new series from the member count on; the table holds
each order of a collection once.
-/

namespace Coppice.Collections

open Coppice.Std Models List

section Add

variable [Host] {store next : ContainerStore} {user : Actor} {shelfId : String}
  {bookIds : List String}

/-- The series an addition puts on a collection shelf. -/
def ContainerStore.newSeries (store : ContainerStore) (shelfId : String) (bookIds : List String) :
    List String :=
  (store.seriesOfBooks bookIds).filter fun id => id ∉ store.containerMemberIds .collection shelfId

/-- No two of the books share a series, and no order of the new series is in use. -/
structure ContainerStore.Addable (store : ContainerStore) (shelfId : String)
    (bookIds : List String) : Prop where
  apart : ∀ book ∈ store.books, ∀ other ∈ store.books, book.id ∈ bookIds → other.id ∈ bookIds →
    book.seriesId = other.seriesId → book = other
  unused : ∀ order ∈ store.displayOrders .collection shelfId,
    order < store.memberCount .collection shelfId ∨
      store.memberCount .collection shelfId + (store.newSeries shelfId bookIds).length ≤ order

theorem mem_seriesOfBooks {id : String} : id ∈ store.seriesOfBooks bookIds ↔
    ∃ book ∈ store.books, book.id ∈ bookIds ∧ book.seriesId = some id := by
  rw [ContainerStore.seriesOfBooks, mem_distinctBy fun _ _ same => same, mem_filterMap]
  simp only [Kobo.mem_scan, mem_filter, decide_eq_true_eq]
  constructor
  · rintro ⟨book, ⟨stored, asked, -⟩, named⟩
    exact ⟨book, stored, asked, named⟩
  · rintro ⟨book, stored, asked, named⟩
    exact ⟨book, ⟨stored, asked, by rw [named]; rfl⟩, named⟩

omit [Host] in
theorem ensureOrders_iff {start count : Nat} :
    store.ensureOrders .collection shelfId start count = .ok () ↔
      ∀ order ∈ store.displayOrders .collection shelfId, order < start ∨ start + count ≤ order := by
  unfold ContainerStore.ensureOrders ContainerStore.displayOrders ContainerStore.memberRows
  rw [forall_mem_map]
  split
  · rename_i taken
    obtain ⟨-, member, stored, mine, atLeast, below⟩ := taken
    refine iff_of_false nofun fun unused => ?_
    have free := unused member (mem_filter.mpr ⟨stored, decide_eq_true mine⟩)
    omega
  · rename_i free
    refine iff_of_true rfl fun member listed => ?_
    obtain ⟨stored, mine⟩ := mem_filter.mp listed
    by_contra taken
    push Not at taken
    exact free ⟨rfl, member, stored, of_decide_eq_true mine, taken⟩

theorem shelfMembers_collection {members : List String}
    (stands : store.shelfMembers .collection bookIds = .ok members) :
    (store.seriesOfBooks bookIds).length = bookIds.length ∧
      store.seriesOfBooks bookIds = members := by
  simp only [ContainerStore.shelfMembers] at stands
  split at stands
  · cases stands
  · rename_i same
    exact ⟨not_not.mp same, Except.ok.inj stands⟩

theorem nodup_seriesOfBooks : (store.seriesOfBooks bookIds).Nodup := by
  rw [ContainerStore.seriesOfBooks, ← map_id' (distinctBy _ _)]
  exact nodup_distinctBy

variable (distinct : (store.books.map fun book => book.id).Nodup) (differ : bookIds.Nodup)
  (stored : ∀ id ∈ bookIds, ∃ book ∈ store.books, book.id = id)
  (shelvable : ∀ book ∈ store.books, book.id ∈ bookIds →
    user.seesBook book ∧ book.deletedAt = none ∧ book.seriesId.isSome)
include distinct differ stored

omit [Host] in
/-- The books asked for are as many as the ids. -/
theorem length_asked :
    (store.books.filter fun book => book.id ∈ bookIds).length = bookIds.length := by
  have ids : ((store.books.filter fun book => book.id ∈ bookIds).map fun book => book.id).Nodup :=
    distinct.sublist (filter_sublist.map _)
  rw [← length_map fun book : Book => book.id]
  refine ((perm_ext_iff_of_nodup ids differ).mpr fun id => ?_).length_eq
  constructor
  · intro listed
    obtain ⟨book, kept, rfl⟩ := mem_map.mp listed
    exact of_decide_eq_true (mem_filter.mp kept).2
  · intro asked
    obtain ⟨book, held, rfl⟩ := stored id asked
    exact mem_map_of_mem (mem_filter.mpr ⟨held, decide_eq_true asked⟩)

include shelvable

theorem ensureVisible_shelvable : store.ensureVisible user .readingList bookIds = .ok () := by
  refine if_pos (.inr ?_)
  rw [ContainerStore.visibleMembers, length_map, (Host.scan_perm _).length_eq,
    ← length_asked distinct differ stored]
  refine congrArg List.length (filter_congr fun book held => ?_)
  by_cases asked : book.id ∈ bookIds
  · obtain ⟨seen, live, -⟩ := shelvable book held asked
    simp [asked, seen, live]
  · simp [asked]

/-- As many series as books: no two of them share one. -/
theorem length_seriesOfBooks_iff : (store.seriesOfBooks bookIds).length = bookIds.length ↔
    ∀ book ∈ store.books, ∀ other ∈ store.books, book.id ∈ bookIds → other.id ∈ bookIds →
      book.seriesId = other.seriesId → book = other := by
  have books : (store.books.filter fun book => book.id ∈ bookIds).Nodup :=
    (Nodup.of_map _ distinct).filter _
  have series : (store.seriesOfBooks bookIds).toFinset.image some =
      (store.books.filter fun book => book.id ∈ bookIds).toFinset.image Book.seriesId := by
    ext id
    simp only [Finset.mem_image, mem_toFinset, mem_seriesOfBooks, mem_filter, decide_eq_true_eq]
    constructor
    · rintro ⟨id, ⟨book, held, asked, named⟩, rfl⟩
      exact ⟨book, ⟨held, asked⟩, named⟩
    · rintro ⟨book, ⟨held, asked⟩, rfl⟩
      obtain ⟨id, named⟩ := Option.isSome_iff_exists.mp (shelvable book held asked).2.2
      exact ⟨id, ⟨book, held, asked, named⟩, named.symm⟩
  have count := congrArg Finset.card series
  rw [Finset.card_image_of_injective _ (Option.some_injective _),
    toFinset_card_of_nodup nodup_seriesOfBooks] at count
  rw [count, ← length_asked distinct differ stored, ← toFinset_card_of_nodup books,
    Finset.card_image_iff]
  simp only [Set.InjOn, coe_toFinset, Set.mem_ofPred_eq, mem_filter, decide_eq_true_eq]
  constructor
  · intro apart book held other there mine its
    exact apart ⟨held, mine⟩ ⟨there, its⟩
  · rintro apart book ⟨held, mine⟩ other ⟨there, its⟩
    exact apart book held other there mine its

omit distinct differ stored shelvable in
/-- What an accepted addition leaves on the shelf. -/
theorem added_series {now : Int} {device : Option String}
    (shelf : (store.find .collection shelfId).isSome)
    (once : (store.containerMemberIds .collection shelfId).Nodup)
    (added : store.addShelfItems user now shelfId bookIds device = .ok next) :
    (next.containerMemberIds .collection shelfId).Nodup ∧
      ∀ id, id ∈ next.containerMemberIds .collection shelfId ↔
        id ∈ store.containerMemberIds .collection shelfId ∨
          ∃ book ∈ store.books, book.id ∈ bookIds ∧ book.seriesId = some id := by
  obtain ⟨kind, members, f, resolved, stands, -, -, rfl⟩ := addShelfItems_ok added
  obtain rfl : ContainerKind.collection = kind := by
    simpa [ContainerStore.resolveShelf, shelf] using resolved
  obtain ⟨-, rfl⟩ := shelfMembers_collection stands
  have ids : ((store.rewrite .collection shelfId f (.add (store.memberCount .collection shelfId)
      (store.newSeries shelfId bookIds))).containerMemberIds .collection shelfId).Perm
        (store.containerMemberIds .collection shelfId ++ store.newSeries shelfId bookIds) := by
    refine containerMemberIds_perm.trans ?_
    rw [memberRows_rewrite, MemberChange.rows, map_append, numbered_memberIds]
    exact containerMemberIds_perm.symm.append_right _
  refine ⟨ids.nodup_iff.mpr ?_, fun id => ?_⟩
  · refine nodup_append'.mpr ⟨once, ?_, fun id listed new => ?_⟩
    · exact nodup_seriesOfBooks.filter _
    · exact of_decide_eq_true (mem_filter.mp new).2 listed
  refine ids.mem_iff.trans ?_
  rw [mem_append, ContainerStore.newSeries, mem_filter,
    mem_seriesOfBooks, decide_eq_true_eq]
  by_cases listed : id ∈ store.containerMemberIds .collection shelfId
  · simp [listed]
  · simp [listed]

/-- For books the user sees, each of a series, on a shelf they may edit: the addition succeeds and
adds the series of the books, each once, exactly if no two of the books share a series and the
orders the new series get are not in use. -/
theorem collection_additions {row : Container} {now : Int} {device : Option String}
    (found : store.find .collection shelfId = some row)
    (editable : row.creatingUserId = user.id ∨ user.isServerOwner)
    (once : (store.containerMemberIds .collection shelfId).Nodup) :
    (∃ next, store.addShelfItems user now shelfId bookIds device = .ok next ∧
      (next.containerMemberIds .collection shelfId).Nodup ∧
      ∀ id, id ∈ next.containerMemberIds .collection shelfId ↔
        id ∈ store.containerMemberIds .collection shelfId ∨
          ∃ book ∈ store.books, book.id ∈ bookIds ∧ book.seriesId = some id) ↔
      store.Addable shelfId bookIds := by
  have writable : store.writableShelf user shelfId = .ok (.collection, row.creatingUserId) := by
    have owner : ¬(row.creatingUserId ≠ user.id ∧ user.isServerOwner = false) := by
      rcases editable with mine | owner
      · exact fun refused => refused.1 mine
      · simp [owner]
    simp only [ContainerStore.writableShelf, bind_eq_ok]
    exact ⟨.collection, by simp [ContainerStore.resolveShelf, found], row.creatingUserId,
      by simp [ContainerStore.shelfOwnerId, found], (), if_neg owner, rfl⟩
  constructor
  · rintro ⟨next, added, -⟩
    simp only [ContainerStore.addShelfItems, writable, bind_eq_ok] at added
    obtain ⟨-, -, -, -, -, ⟨⟩, members, stands, _, free, -⟩ := added
    obtain ⟨same, rfl⟩ := shelfMembers_collection stands
    exact ⟨(length_seriesOfBooks_iff distinct differ stored shelvable).mp same,
      ensureOrders_iff.mp free⟩
  · rintro ⟨apart, unused⟩
    have same := (length_seriesOfBooks_iff distinct differ stored shelvable).mpr apart
    have accepted : ∃ next, store.addShelfItems user now shelfId bookIds device = .ok next := by
      have touched : ∃ next, (store.modify .collection (·.addMembers shelfId
          (store.memberCount .collection shelfId) (store.newSeries shelfId bookIds))).touch
            .collection now shelfId none device = .ok next := by
        unfold ContainerStore.touch
        split
        · rename_i missing
          cases missing.symm.trans found
        · exact ⟨_, rfl⟩
      obtain ⟨next, touched⟩ := touched
      simp only [ContainerStore.addShelfItems, writable, bind_eq_ok]
      exact ⟨next, (), if_pos differ, (),
        ensureVisible_shelvable distinct differ stored shelvable, _, rfl,
        store.seriesOfBooks bookIds, if_neg (not_not.mpr same), (), ensureOrders_iff.mpr unused,
        touched⟩
    obtain ⟨next, added⟩ := accepted
    exact ⟨next, added, added_series (by rw [found]; rfl) once added⟩

end Add

section Sample

local instance additionHost : Host := Host.sample

def sampleShelf (members : List Member) : ContainerStore :=
  ⟨⟨[⟨"shelf", "Shelf", none, 0, false, .isPrivate, false, none, "lister"⟩], members⟩,
    ⟨[], []⟩, [], [],
    [sampleVolume "a", sampleVolume "b", { sampleVolume "c" with seriesId := some "tale" }], []⟩

/-- Two volumes of a series are refused, and so is a series whose order another one holds: the
first of two members was removed before. -/
theorem shelf_refuses_series :
    (sampleShelf []).addShelfItems sampleLister 1 "shelf" ["a", "b"] none =
        .error (.badRequest "Every book on a collection shelf must belong to a series") ∧
      ((sampleShelf [⟨0, "tale", "shelf"⟩, ⟨1, "lore", "shelf"⟩]).removeShelfItems sampleLister 1
        "shelf" ["c"] none >>= fun store =>
          store.addShelfItems sampleLister 2 "shelf" ["a"] none) = .error .dbError := by
  decide

theorem collection_additions_sample :
    ∃ next, (sampleShelf []).addShelfItems sampleLister 1 "shelf" ["a", "c"] none = .ok next ∧
      "tale" ∈ next.containerMemberIds .collection "shelf" := by
  have addable : (sampleShelf []).Addable "shelf" ["a", "c"] := ⟨by decide, by decide⟩
  obtain ⟨next, added, -, listed⟩ :=
    (@collection_additions _ (sampleShelf []) sampleLister "shelf" ["a", "c"]
      (by decide) (by decide)
      (by decide) (by decide) _ 1 none rfl (.inl rfl) (by decide)).mpr addable
  exact ⟨next, added, (listed "tale").mpr (.inr ⟨_, .tail _ (.tail _ (.head _)), by decide, rfl⟩)⟩

end Sample

end Coppice.Collections
