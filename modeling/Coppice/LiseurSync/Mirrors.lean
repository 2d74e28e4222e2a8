import Coppice.LiseurSync.Native

/-!
# What reconciliation does to mirrors

Reconciliation is a sequence of single edits of the annotation lane: a mirror is
created for a record some native row exports, refreshed to it, or retired. Every
property of the reconciling functions is read off these three edits.
-/

namespace Coppice.LiseurSync

open Coppice.Std Models Models.Store

/-- The native row behind an identity is not itself a projection. -/
def SourceOwned (id : String) : Prop :=
  ∀ kind nativeId, parseStumpNativeAnnotationId id = some (kind, nativeId) →
    isLiseurSyncProjectionId nativeId = false

section Exports

variable [Host] {link : NativeMediaLink} {candidate : NativeAnnotationCandidate} {s : Store}

/-- A record some native row exports as. -/
inductive Exported (candidate : NativeAnnotationCandidate) : Prop where
  | mark {row : MediaAnnotation} {link : NativeMediaLink}
      (exports : mediaAnnotationCandidate row link = some candidate)
  | bookmark {row : Bookmark} {link : NativeMediaLink}
      (exports : bookmarkCandidate row link = some candidate)

theorem mediaAnnotationCandidate_some {row : MediaAnnotation}
    (exports : mediaAnnotationCandidate row link = some candidate) :
    (candidate.id = stumpNativeAnnotationId .mark row.id ∧
      isLiseurSyncProjectionId row.id = false) ∧ row.positionMs = none ∧
      byteLen (stumpNativeAnnotationId .mark row.id) ≤ 64 ∧ candidate.workId = link.workId ∧
      candidate.editionSha = link.editionSha := by
  unfold mediaAnnotationCandidate at exports
  split at exports
  · cases exports
  rename_i own
  simp only [Option.ite_none_left_eq_some, Option.some.injEq] at exports
  obtain ⟨short, rfl⟩ := exports
  simp only [not_or, Bool.not_eq_true, Option.isSome_eq_false_iff, Option.isNone_iff_eq_none]
    at own
  refine ⟨⟨rfl, own.1⟩, own.2.1, ?_, rfl, rfl⟩
  exact not_lt.mp fun long => short (.inr long)

theorem bookmarkCandidate_some {row : Bookmark}
    (exports : bookmarkCandidate row link = some candidate) :
    (candidate.id = stumpNativeAnnotationId .bookmark row.id ∧
      isLiseurSyncProjectionId row.id = false) ∧
      byteLen (stumpNativeAnnotationId .bookmark row.id) ≤ 64 ∧ candidate.workId = link.workId ∧
      candidate.editionSha = link.editionSha := by
  unfold bookmarkCandidate at exports
  split at exports
  · cases exports
  rename_i own
  split at exports
  · cases exports
  · simp only [Option.ite_none_left_eq_some, Option.some.injEq] at exports
    obtain ⟨short, rfl⟩ := exports
    exact ⟨⟨rfl, Bool.eq_false_iff.mpr own⟩, not_lt.mp short, rfl, rfl⟩

theorem Exported.identity (exported : Exported candidate) :
    ∃ kind nativeId, candidate.id = stumpNativeAnnotationId kind nativeId ∧
      isLiseurSyncProjectionId nativeId = false := by
  cases exported with
  | @mark row _ exports => exact ⟨.mark, row.id, (mediaAnnotationCandidate_some exports).1⟩
  | @bookmark row _ exports => exact ⟨.bookmark, row.id, (bookmarkCandidate_some exports).1⟩

theorem Exported.native (exported : Exported candidate) :
    isStumpNativeAnnotationId candidate.id = true := by
  obtain ⟨kind, nativeId, identity, -⟩ := exported.identity
  rw [identity]
  exact isStumpNativeAnnotationId_self kind nativeId

theorem Exported.sourceOwned (exported : Exported candidate) : SourceOwned candidate.id := by
  obtain ⟨kind, nativeId, identity, own⟩ := exported.identity
  intro otherKind otherId parsed
  rw [identity, parse_stumpNativeAnnotationId] at parsed
  split at parsed
  · cases parsed
  · cases parsed
    exact own

/-- A record exports under the identity it was asked for. -/
theorem nativeCandidateForId_exported {id : String}
    (found : nativeCandidateForId s id = some candidate) :
    Exported candidate ∧ candidate.id = id := by
  unfold nativeCandidateForId at found
  cases parsed : parseStumpNativeAnnotationId id with
  | none => simp [parsed] at found
  | some parts =>
    obtain ⟨kind, nativeId⟩ := parts
    rw [eq_of_parseStumpNativeAnnotationId parsed]
    cases kind with
    | mark =>
      simp only [parsed, Option.bind_eq_some_iff] at found
      obtain ⟨row, stored, link, -, exports⟩ := found
      exact ⟨.mark exports, by rw [(mediaAnnotationCandidate_some exports).1.1, lookup_key stored]⟩
    | bookmark =>
      simp only [parsed, Option.bind_eq_some_iff] at found
      obtain ⟨row, stored, link, -, exports⟩ := found
      exact ⟨.bookmark exports, by rw [(bookmarkCandidate_some exports).1.1, lookup_key stored]⟩

theorem nativeCandidatesForWorks_exported {works : List String}
    (member : candidate ∈ nativeCandidatesForWorks s works) : Exported candidate := by
  rcases List.mem_append.mp member with marks | bookmarks
  · obtain ⟨row, -, exports⟩ := List.mem_filterMap.mp marks
    obtain ⟨link, -, exports⟩ := Option.bind_eq_some_iff.mp exports
    exact .mark exports
  · obtain ⟨row, -, exports⟩ := List.mem_filterMap.mp bookmarks
    obtain ⟨link, -, exports⟩ := Option.bind_eq_some_iff.mp exports
    exact .bookmark exports

end Exports

section Rows

variable {s : Store} {P : StoredAnnotation → Prop}

/-- Rewriting a row keeps what the rewriting keeps. -/
theorem forall_updateRow {id : String} {f : StoredAnnotation → StoredAnnotation}
    (rows : ∀ row ∈ s.annotations, P row) (written : ∀ row, row.id = id → P row → P (f row)) :
    ∀ row ∈ (updateRow (nextAnnotationSeq s).1 id f).annotations, P row := by
  intro row member
  rcases mem_updateAt.mp member with ⟨old, -⟩ | ⟨old, stored, same, rfl⟩
  · exact rows row old
  · exact written old same (rows old stored)

theorem forall_insertRow {new : StoredAnnotation} (rows : ∀ row ∈ s.annotations, P row)
    (inserted : P new) : ∀ row ∈ (insertRow (nextAnnotationSeq s).1 new).annotations, P row := by
  exact forall_mem_concat rows inserted

end Rows

section Edits

variable [Host] {id : String} {s' s : Store} {stored : Option StoredAnnotation}

/-- One edit of a mirror, at the next position of the feed. -/
inductive MirrorEdit (s : Store) : Store → Prop where
  | created {candidate : NativeAnnotationCandidate} (exported : Exported candidate)
      (absent : findAnnotationRow s candidate.id = none) :
      MirrorEdit s
        (insertRow (nextAnnotationSeq s).1 (mirrorOf candidate (s.annotationSeq + 1)))
  | refreshed {candidate : NativeAnnotationCandidate} (exported : Exported candidate)
      (stored : StoredAnnotation) :
      MirrorEdit s
        (updateRow (nextAnnotationSeq s).1 candidate.id
          (refreshMirror candidate stored (s.annotationSeq + 1)))
  | retired (now : Int) {stored : StoredAnnotation}
      (mirror : isStumpNativeAnnotationId stored.id = true) :
      MirrorEdit s
        (updateRow (nextAnnotationSeq s).1 stored.id
          (tombstone now stored.rev (s.annotationSeq + 1)))

/-- Any number of edits. -/
abbrev MirrorEdits : Store → Store → Prop := Relation.ReflTransGen MirrorEdit

theorem reconcileNativeCandidate_edits (exported : Exported candidate)
    (fresh : stored = none → findAnnotationRow s candidate.id = none) :
    MirrorEdits s (reconcileNativeCandidate s candidate stored) := by
  cases stored with
  | none => exact .single (.created exported (fresh rfl))
  | some stored =>
    simp only [reconcileNativeCandidate]
    split
    · exact .refl
    · exact .single (.refreshed exported stored)

theorem reconcileNativeId_edits (now : Int)
    (native : isStumpNativeAnnotationId id = true) (own : ∀ row ∈ stored, row.id = id) :
    MirrorEdits s (reconcileNativeId now s id stored) := by
  unfold reconcileNativeId
  simp only
  split
  · rename_i candidate _ found
    obtain ⟨exported, identity⟩ := nativeCandidateForId_exported found
    refine reconcileNativeCandidate_edits exported fun missing => ?_
    rw [identity]
    exact (Option.or_eq_none_iff.mp missing).2
  · rename_i row _ held
    split
    · exact .refl
    refine .single (.retired now ?_)
    have same : row.id = id := by
      rcases Option.or_eq_some_iff.mp held with given | ⟨-, found⟩
      · exact own row given
      · exact lookup_key found
    rw [same]
    exact native
  · exact .refl

theorem reconcileNativeIds_edits (now : Int) (ids : List String) :
    MirrorEdits s (reconcileNativeIds now s ids) := by
  unfold reconcileNativeIds
  split
  · refine foldl_rel (fun _ => .refl) .trans fun s id member => ?_
    exact reconcileNativeId_edits now (List.mem_filter.mp member).2
      fun _ none => absurd none (Option.not_mem_none _)
  · exact .refl

theorem reconcileWindowCandidate_edits {state : Store × List StoredAnnotation}
    (exported : Exported candidate) :
    MirrorEdits state.1 (reconcileWindowCandidate state candidate).1 :=
  reconcileNativeCandidate_edits exported fun missing => (Option.or_eq_none_iff.mp missing).2

/-- The mirrors a window has left are among those it was read with. -/
theorem reconcileWindow_sublist (candidates : List NativeAnnotationCandidate)
    (state : Store × List StoredAnnotation) :
    (candidates.foldl reconcileWindowCandidate state).2.Sublist state.2 :=
  foldl_rel (R := fun a b : Store × List StoredAnnotation => b.2.Sublist a.2)
    (fun _ => List.Sublist.refl _) (fun first second => second.trans first)
    fun _ _ _ => List.filter_sublist

theorem reconcileNativeWorks_edits (now : Int) (works : List String) :
    MirrorEdits s (reconcileNativeWorks now s works) := by
  unfold reconcileNativeWorks
  simp only
  split
  · exact .refl
  -- First the candidates of the window, then the mirrors no candidate matched.
  have window : MirrorEdits s ((nativeCandidatesForWorks s works).foldl
      reconcileWindowCandidate (s, nativeMirrorsForWorks s works)).1 :=
    foldl_rel (R := fun a b => MirrorEdits a.1 b.1) (s := (s, nativeMirrorsForWorks s works))
      (fun _ => .refl) .trans fun state candidate member =>
        reconcileWindowCandidate_edits (nativeCandidatesForWorks_exported member)
  refine window.trans (foldl_rel (fun _ => .refl) .trans fun s row member => ?_)
  have left := (Host.scan_perm _).mem_iff.mp (List.mem_filter.mp member).1
  have read := (reconcileWindow_sublist _ _).subset left
  have parsed := (Bool.and_eq_true_iff.mp (List.mem_filter.mp read).2).2
  obtain ⟨parts, parsed⟩ := Option.isSome_iff_exists.mp parsed
  exact reconcileNativeId_edits now (isStumpNativeAnnotationId_of_parse parsed)
    fun other same => by rw [Option.mem_some_iff.mp same]

/-- Edits of mirrors never touch a record a client owns. -/
theorem MirrorEdit.client (edit : MirrorEdit s s') (client : isStumpNativeAnnotationId id = false) :
    findAnnotationRow s' id = findAnnotationRow s id := by
  have differ {other : String} (native : isStumpNativeAnnotationId other = true) : id ≠ other := by
    rintro rfl
    rw [client] at native
    cases native
  cases edit with
  | created exported absent =>
    have other : lookup StoredAnnotation.id [mirrorOf _ (s.annotationSeq + 1)] id = none :=
      lookup_eq_none.mpr (by simpa [mirrorOf] using (differ exported.native).symm)
    simp only [findAnnotationRow, insertRow, nextAnnotationSeq, lookup_append, other,
      Option.or_none]
  | refreshed exported stored =>
    exact lookup_updateAt_of_ne (fun _ same => same) (differ exported.native)
  | retired now mirror => exact lookup_updateAt_of_ne (fun _ same => same) (differ mirror)

theorem MirrorEdits.client (edits : MirrorEdits s s')
    (client : isStumpNativeAnnotationId id = false) :
    findAnnotationRow s' id = findAnnotationRow s id := by
  induction edits with
  | refl => rfl
  | tail _ edit ih => exact (edit.client client).trans ih

/-- What every kind of edit keeps about a row holds of every row. -/
theorem MirrorEdits.forall_rows {P : StoredAnnotation → Prop}
    (create : ∀ candidate seq, Exported candidate → P (mirrorOf candidate seq))
    (refresh : ∀ candidate stored seq row, Exported candidate → row.id = candidate.id → P row →
      P (refreshMirror candidate stored seq row))
    (retire : ∀ now rev seq row, isStumpNativeAnnotationId row.id = true → P row →
      P (tombstone now rev seq row))
    (edits : MirrorEdits s s') (rows : ∀ row ∈ s.annotations, P row) :
    ∀ row ∈ s'.annotations, P row := by
  induction edits with
  | refl => exact rows
  | tail _ edit ih =>
    cases edit with
    | created exported absent => exact forall_insertRow ih (create _ _ exported)
    | refreshed exported stored =>
      exact forall_updateRow ih fun row same => refresh _ stored _ row exported same
    | retired now mirror =>
      exact forall_updateRow ih fun row same => retire now _ _ row (by rw [same]; exact mirror)

end Edits

section Identities

variable [Host]

/-- A live mirror holds what its native row exports. -/
def Follows (s : Store) (id : String) : Prop :=
  ∀ row, findAnnotationRow s id = some row → row.deleted = false →
    ∃ candidate, nativeCandidateForId s id = some candidate ∧
      nativeCandidateMatches row candidate = true

/-- Everything reconciling one identity can do: nothing when the mirror follows
its row, or one edit of exactly that mirror. -/
inductive Reconciled (now : Int) (s : Store) (id : String) : Store → Prop where
  | settled (follows : Follows s id) : Reconciled now s id s
  | created {candidate : NativeAnnotationCandidate}
      (exports : nativeCandidateForId s id = some candidate) (identity : candidate.id = id)
      (absent : findAnnotationRow s id = none) :
      Reconciled now s id
        (insertRow (nextAnnotationSeq s).1 (mirrorOf candidate (s.annotationSeq + 1)))
  | refreshed {candidate : NativeAnnotationCandidate} {stored : StoredAnnotation}
      (exports : nativeCandidateForId s id = some candidate)
      (found : findAnnotationRow s id = some stored) :
      Reconciled now s id
        (updateRow (nextAnnotationSeq s).1 id
          (refreshMirror candidate stored (s.annotationSeq + 1)))
  | retired {stored : StoredAnnotation} (found : findAnnotationRow s id = some stored) :
      Reconciled now s id
        (updateRow (nextAnnotationSeq s).1 id (tombstone now stored.rev (s.annotationSeq + 1)))

theorem reconcileNativeId_reconciled (now : Int) (s : Store) (id : String) :
    Reconciled now s id (reconcileNativeId now s id none) := by
  unfold reconcileNativeId
  simp only [Option.none_or]
  cases exported : nativeCandidateForId s id with
  | some candidate =>
    obtain ⟨-, identity⟩ := nativeCandidateForId_exported exported
    cases held : findAnnotationRow s id with
    | none => exact .created exported identity held
    | some stored =>
      simp only [reconcileNativeCandidate]
      split
      · rename_i matching
        refine .settled fun row found _ => ⟨candidate, exported, ?_⟩
        rw [held] at found
        cases found
        exact matching
      · rw [identity]
        exact .refreshed exported held
  | none =>
    cases held : findAnnotationRow s id with
    | none =>
      refine .settled fun row found => ?_
      rw [held] at found
      cases found
    | some stored =>
      simp only
      split
      · rename_i deleted
        refine .settled fun row found live => ?_
        rw [held] at found
        cases found
        rw [deleted] at live
        cases live
      · simp only [tombstoneNativeMirror, lookup_key held]
        exact .retired held

end Identities
end Coppice.LiseurSync
