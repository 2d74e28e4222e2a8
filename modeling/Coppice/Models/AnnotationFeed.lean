import Coppice.Models.Store

/-!
# Feed positions and identities of annotation records

`seq` is the clock every consumer of the annotation lane reads by.
`resequenceWorkAnnotations` is how a link writer reports that a work's records
belong somewhere else now: each live record moves above the high water, in the
order it had, and nothing else about it changes. The identities say which
records are mirrors of native rows and which native rows are projections of
records, and `projectionLinkLe` ranks the books a record may project onto.
-/

namespace Coppice.Models

open Coppice.Std

def stumpNativeAnnotationIdPrefix : String := "stump-native:"

/-- The native table a mirror comes from. -/
inductive NativeKind where
  /-- `media_annotations`, written `annotation` in an identity. -/
  | mark
  | bookmark
deriving DecidableEq, Repr

def NativeKind.text : NativeKind → String
  | mark => "annotation"
  | bookmark => "bookmark"

def stumpNativeAnnotationId (kind : NativeKind) (nativeId : String) : String :=
  stumpNativeAnnotationIdPrefix ++ kind.text ++ ":" ++ nativeId

def parseStumpNativeAnnotationId (id : String) : Option (NativeKind × String) :=
  match (stripStart stumpNativeAnnotationIdPrefix id).bind (splitOnce ':') with
  | none => none
  | some (kind, nativeId) =>
    if nativeId = "" then none
    else if kind = NativeKind.mark.text then some (.mark, nativeId)
    else if kind = NativeKind.bookmark.text then some (.bookmark, nativeId)
    else none

def isStumpNativeAnnotationId (id : String) : Bool :=
  startsWith stumpNativeAnnotationIdPrefix id

def liseurSyncProjectionIdPrefix : String := "liseur-sync:"

def liseurSyncProjectionId (userId annotationId : String) : String :=
  liseurSyncProjectionIdPrefix ++ userId ++ ":" ++ annotationId

def isLiseurSyncProjectionId (id : String) : Bool :=
  startsWith liseurSyncProjectionIdPrefix id

/-- Whether a link names the edition an annotation was made on. -/
def namesEdition (editionSha : String) (link : MediaLink) : Bool :=
  editionSha ≠ "" && link.editionSha = editionSha

/-- The order `projection_link_order_by` writes: the annotation's own edition,
then an edition that is not an audiobook, then the oldest link. -/
def projectionLinkLe (s : Store) (editionSha : String) (left right : MediaLink) : Bool :=
  if namesEdition editionSha left ≠ namesEdition editionSha right then
    namesEdition editionSha left
  else if s.isAudio left.mediaId ≠ s.isAudio right.mediaId then s.isAudio right.mediaId
  else if left.createdAt ≠ right.createdAt then left.createdAt < right.createdAt
  else left.id ≤ right.id

/-- The live records of a work, in feed order. -/
def liveAnnotations (s : Store) (workId : String) : List StoredAnnotation :=
  orderBy StoredAnnotation.seq
    (s.annotations.filter fun row => row.workId = workId && !row.deleted)

/-- Move every live record of a work above the high water, in feed order, and
say how many moved. -/
def resequenceWorkAnnotations (s : Store) (workId : String) : Store × Nat :=
  let rows := (liveAnnotations s workId).map StoredAnnotation.id
  let first := s.annotationSeq + 1
  ({ s with
      annotationSeq := s.annotationSeq + rows.length
      annotations := s.annotations.map fun row =>
        match rows.findIdx? (· = row.id) with
        | some offset => { row with seq := first + offset }
        | none => row },
    rows.length)

section Ids

variable {id nativeId : String} {kind : NativeKind}

theorem isStumpNativeAnnotationId_self (kind : NativeKind) (nativeId : String) :
    isStumpNativeAnnotationId (stumpNativeAnnotationId kind nativeId) = true := by
  unfold stumpNativeAnnotationId isStumpNativeAnnotationId
  rw [String.append_assoc, String.append_assoc]
  exact startsWith_append _ _

/-- An identity reads back as the native table and id it was made of, unless the
id is empty. -/
theorem parse_stumpNativeAnnotationId (kind : NativeKind) (nativeId : String) :
    parseStumpNativeAnnotationId (stumpNativeAnnotationId kind nativeId) =
      if nativeId = "" then none else some (kind, nativeId) := by
  have stripped : stripStart stumpNativeAnnotationIdPrefix (stumpNativeAnnotationId kind nativeId) =
      some (kind.text ++ ":" ++ nativeId) := by
    have grouped : stumpNativeAnnotationId kind nativeId =
        stumpNativeAnnotationIdPrefix ++ (kind.text ++ ":" ++ nativeId) := by
      simp only [stumpNativeAnnotationId, String.append_assoc]
    rw [grouped, stripStart_append]
  have split : splitOnce ':' (kind.text ++ ":" ++ nativeId) = some (kind.text, nativeId) := by
    refine splitOnce_of_absent ?_ ?_
    · cases kind <;> decide
    · simp [String.toList_append]
  unfold parseStumpNativeAnnotationId
  rw [stripped, Option.bind_some, split]
  cases kind with
  | mark => rfl
  | bookmark => rfl

/-- A mirror's identity is the one its native row has. -/
theorem eq_of_parseStumpNativeAnnotationId
    (parsed : parseStumpNativeAnnotationId id = some (kind, nativeId)) :
    id = stumpNativeAnnotationId kind nativeId := by
  unfold parseStumpNativeAnnotationId at parsed
  cases stripped : stripStart stumpNativeAnnotationIdPrefix id with
  | none => simp [stripped] at parsed
  | some rest =>
    rw [stripped, Option.bind_some] at parsed
    cases split : splitOnce ':' rest with
    | none => simp [split] at parsed
    | some parts =>
      obtain ⟨kindText, native⟩ := parts
      simp only [split] at parsed
      have shape : kindText = kind.text ∧ native = nativeId := by
        split_ifs at parsed with _ isMark isBookmark
        all_goals
          cases parsed
          constructor <;> first | assumption | rfl
      obtain ⟨rfl, rfl⟩ := shape
      rw [eq_append_of_stripStart stripped]
      apply String.ext
      simp only [stumpNativeAnnotationId, String.toList_append, eq_of_splitOnce split]
      simp

theorem isStumpNativeAnnotationId_of_parse
    (parsed : parseStumpNativeAnnotationId id = some (kind, nativeId)) :
    isStumpNativeAnnotationId id = true := by
  rw [eq_of_parseStumpNativeAnnotationId parsed]
  exact isStumpNativeAnnotationId_self kind nativeId

theorem isLiseurSyncProjectionId_self (userId id : String) :
    isLiseurSyncProjectionId (liseurSyncProjectionId userId id) = true := by
  unfold liseurSyncProjectionId isLiseurSyncProjectionId
  rw [String.append_assoc, String.append_assoc]
  exact startsWith_append _ _

/-- Records of one account project under ids of their own. -/
theorem liseurSyncProjectionId_injective (userId : String) :
    Function.Injective (liseurSyncProjectionId userId) := by
  intro left right same
  have letters := congrArg String.toList same
  simp only [liseurSyncProjectionId, String.toList_append, List.append_cancel_left_eq] at letters
  exact String.ext letters

end Ids
end Coppice.Models
