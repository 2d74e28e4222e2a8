import Coppice.LiseurSync.Lane

/-!
# The native rows under an id

What the annotation writers do to the two native tables, read by id. Projection
replaces the rows under one record's projection id and touches no other;
write-back and source deletes touch the row a mirror names. What an identity
exports depends on the rows under its native id only.
-/

namespace Coppice.LiseurSync

open Coppice.Std Models Models.Store

/-- The rows a native table holds under an id. -/
def nativeRowsAt (s : Store) (nativeId : String) : NativeKind → List NativeRow
  | .mark => (s.mediaAnnotations.filter fun row => row.id = nativeId).map .mark
  | .bookmark => (s.bookmarks.filter fun row => row.id = nativeId).map .bookmark

namespace NativeRow

/-- The table a row belongs to. -/
def table : NativeRow → NativeKind
  | .mark _ => .mark
  | .bookmark _ => .bookmark

def id : NativeRow → String
  | .mark row => row.id
  | .bookmark row => row.id

def mediaId : NativeRow → String
  | .mark row => row.mediaId
  | .bookmark row => row.mediaId

end NativeRow

section Tables

variable {s s' : Store} {nativeId id : String} {row : StoredAnnotation} {kind : NativeKind}

theorem deleteNativeAnnotationProjection_rows (projectionId : String) (kind : NativeKind) :
    nativeRowsAt (deleteNativeAnnotationProjection s projectionId) nativeId kind =
      if nativeId = projectionId then [] else nativeRowsAt s nativeId kind := by
  cases kind with
  | mark | bookmark =>
    simp only [nativeRowsAt, deleteNativeAnnotationProjection, filter_removed]
    split <;> rfl

theorem insertNativeRow_rows (row : NativeRow) (kind : NativeKind) :
    nativeRowsAt (insertNativeRow s row) nativeId kind =
      nativeRowsAt s nativeId kind ++
        if row.table = kind ∧ row.id = nativeId then [row] else [] := by
  cases row with
  | mark row =>
    cases kind with
    | mark =>
      by_cases same : row.id = nativeId <;>
        simp [nativeRowsAt, insertNativeRow, NativeRow.table, NativeRow.id, same]
    | bookmark => simp [nativeRowsAt, insertNativeRow, NativeRow.table]
  | bookmark row =>
    cases kind with
    | mark => simp [nativeRowsAt, insertNativeRow, NativeRow.table]
    | bookmark =>
      by_cases same : row.id = nativeId <;>
        simp [nativeRowsAt, insertNativeRow, NativeRow.table, NativeRow.id, same]

variable [Host]

/-- A projection is of a live record, on the book its work is linked to. -/
theorem projectionOf_some {native : NativeRow} (projects : projectionOf s row = .ok (some native)) :
    row.deleted = false ∧ linkedAnnotationMediaId s row = some native.mediaId ∧
      native.id = liseurSyncProjectionId s.userId row.id := by
  unfold projectionOf at projects
  split at projects
  · cases projects
  rename_i live
  refine ⟨by simpa using fun deleted => live (.inl deleted), ?_⟩
  split at projects
  · cases projects
  · cases projects
  rename_i linked
  obtain ⟨createdAt, -, projects⟩ := bind_eq_ok.mp projects
  obtain ⟨updatedAt, -, projects⟩ := bind_eq_ok.mp projects
  cases projects
  rw [linked]
  unfold nativeRowOf
  split <;> exact ⟨rfl, rfl⟩

/-- Projecting a record of a client leaves exactly its projection under its
projection id, and every other id alone. -/
theorem projectAnnotation_rows (client : isStumpNativeAnnotationId row.id = false)
    (success : projectAnnotation s row = .ok s') :
    ∃ projection, projectionOf s row = .ok projection ∧
      ∀ nativeId kind, nativeRowsAt s' nativeId kind =
        if nativeId = liseurSyncProjectionId s.userId row.id then
          projection.toList.filter fun native => native.table = kind
        else nativeRowsAt s nativeId kind := by
  unfold projectAnnotation at success
  rw [if_neg (by simp [client])] at success
  obtain ⟨projection, projected, success⟩ := bind_eq_ok.mp success
  cases success
  refine ⟨projection, projected, fun nativeId kind => ?_⟩
  cases projection with
  | none =>
    rw [Option.elim_none, deleteNativeAnnotationProjection_rows]
    rfl
  | some native =>
    rw [Option.elim_some, insertNativeRow_rows, deleteNativeAnnotationProjection_rows,
      (projectionOf_some projected).2.2]
    by_cases same : nativeId = liseurSyncProjectionId s.userId row.id
    · by_cases table : native.table = kind <;> simp [same, table]
    · simp [same, Ne.symm same]

theorem projectAnnotation_other (success : projectAnnotation s row = .ok s')
    (differ : nativeId ≠ liseurSyncProjectionId s.userId row.id) (kind : NativeKind) :
    nativeRowsAt s' nativeId kind = nativeRowsAt s nativeId kind := by
  cases client : isStumpNativeAnnotationId row.id with
  | true =>
    simp only [client, projectAnnotation, if_true, Except.ok.injEq] at success
    rw [success]
  | false =>
    obtain ⟨projection, -, rows⟩ := projectAnnotation_rows client success
    rw [rows, if_neg differ]

/-- Projection writes projection ids only. -/
theorem reconcileAnnotationProjections_source (success : reconcileAnnotationProjections s = .ok s')
    (source : isLiseurSyncProjectionId nativeId = false) (kind : NativeKind) :
    nativeRowsAt s' nativeId kind = nativeRowsAt s nativeId kind := by
  refine reconcileAnnotationProjections_rel
    (R := fun s s' => nativeRowsAt s' nativeId kind = nativeRowsAt s nativeId kind)
    (fun _ => rfl) (fun first second => second.trans first) (fun _ _ => by cases kind <;> rfl)
    (fun _ _ row _ _ step => projectAnnotation_other step ?_ kind) success
  rintro rfl
  rw [isLiseurSyncProjectionId_self] at source
  cases source

theorem projectIfApplied_source {results : List AnnotationResult}
    (success : projectIfApplied s results = .ok s')
    (source : isLiseurSyncProjectionId nativeId = false) (kind : NativeKind) :
    nativeRowsAt s' nativeId kind = nativeRowsAt s nativeId kind := by
  unfold projectIfApplied at success
  split at success
  · exact reconcileAnnotationProjections_source success source kind
  · cases success
    rfl

/-- Write-back touches the row its mirror names only. -/
theorem Rewritten.rows {now : Int} {input rewritten : AnnotationInput} {stored : StoredAnnotation}
    (rewrite : Rewritten now s input stored s' rewritten)
    (other : parseStumpNativeAnnotationId input.id ≠ some (kind, nativeId)) :
    nativeRowsAt s' nativeId kind = nativeRowsAt s nativeId kind := by
  cases rewrite with
  | client => rfl
  | mark parsed =>
    cases kind with
    | bookmark => rfl
    | mark =>
      simp only [nativeRowsAt]
      rw [filter_updateAt_of_ne]
      · exact fun _ same => same
      · rintro rfl
        exact other parsed
  | bookmark parsed =>
    cases kind with
    | mark => rfl
    | bookmark =>
      simp only [nativeRowsAt]
      rw [filter_updateAt_of_ne]
      · exact fun _ same => same
      · rintro rfl
        exact other parsed

omit [Host] in
/-- Deleting a mirror deletes the row it names only. -/
theorem deleteSource_rows (success : deleteSource s id = .ok s')
    (other : parseStumpNativeAnnotationId id ≠ some (kind, nativeId)) :
    nativeRowsAt s' nativeId kind = nativeRowsAt s nativeId kind := by
  unfold deleteSource deleteNativeAnnotationSource at success
  split_ifs at success
  · cases parsed : parseStumpNativeAnnotationId id with
    | none => simp [parsed] at success
    | some parts =>
      obtain ⟨table, named⟩ := parts
      have differ : table = kind → nativeId ≠ named := by
        rintro rfl rfl
        exact other parsed
      cases table with
      | mark =>
        simp only [parsed] at success
        split_ifs at success
        cases success
        cases kind with
        | mark => simp only [nativeRowsAt, filter_removed, if_neg (differ rfl)]
        | bookmark => rfl
      | bookmark =>
        simp only [parsed] at success
        split_ifs at success
        cases success
        cases kind with
        | mark => rfl
        | bookmark => simp only [nativeRowsAt, filter_removed, if_neg (differ rfl)]
  · cases success
    rfl

/-- A projection exports nothing. -/
theorem nativeCandidateForId_projection
    (parsed : parseStumpNativeAnnotationId id = some (kind, nativeId))
    (projection : isLiseurSyncProjectionId nativeId = true) : nativeCandidateForId s id = none := by
  rw [Option.eq_none_iff_forall_not_mem]
  intro candidate found
  obtain ⟨exported, identity⟩ := nativeCandidateForId_exported found
  have own := exported.sourceOwned kind nativeId (by rw [identity]; exact parsed)
  rw [projection] at own
  cases own

/-- What an identity exports depends on the rows under its native id. -/
theorem nativeCandidateForId_congr (frame : NativeOnly s s')
    (rows : ∀ kind nativeId, parseStumpNativeAnnotationId id = some (kind, nativeId) →
      isLiseurSyncProjectionId nativeId = false →
      nativeRowsAt s' nativeId kind = nativeRowsAt s nativeId kind) :
    nativeCandidateForId s' id = nativeCandidateForId s id := by
  have links (mediaId : String) : readableNativeLink s' mediaId = readableNativeLink s mediaId := by
    rw [frame]
    rfl
  cases parsed : parseStumpNativeAnnotationId id with
  | none => simp [nativeCandidateForId, parsed]
  | some parts =>
    obtain ⟨kind, nativeId⟩ := parts
    cases projection : isLiseurSyncProjectionId nativeId with
    | true =>
      rw [nativeCandidateForId_projection parsed projection,
        nativeCandidateForId_projection parsed projection]
    | false =>
      have same := rows kind nativeId parsed projection
      cases kind with
      | mark =>
        have found := List.map_injective_iff.mpr (fun _ _ => NativeRow.mark.inj) same
        simp only [nativeCandidateForId, parsed, lookup_eq_head?, found, links]
      | bookmark =>
        have found := List.map_injective_iff.mpr (fun _ _ => NativeRow.bookmark.inj) same
        simp only [nativeCandidateForId, parsed, lookup_eq_head?, found, links]

end Tables
end Coppice.LiseurSync
