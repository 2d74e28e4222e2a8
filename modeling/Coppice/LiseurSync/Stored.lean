import Coppice.LiseurSync.Retries

/-!
# What an applied push stores

A new record takes every field of the input. An update takes every field but one: its statement does
not set the work, which only native identities are refused to change.
-/

namespace Coppice.LiseurSync

open Coppice.Std Models Models.Store

/-- A served record has the content of an input; an empty text reads back as absent. -/
structure Serves (record : AnnotationRecord) (input : AnnotationInput) : Prop where
  workId : record.workId = some input.workId
  editionSha : record.editionSha = input.editionSha
  kind : record.kind = some input.kind
  locator : record.locator = input.locator
  progression : record.progression = input.progression
  excerpt : record.excerpt = nonempty input.excerpt
  body : record.body = nonempty input.body

section Applied

variable [Host] {now : Int} {deviceId : String} {s s' : Store} {input : AnnotationInput}
  {result : AnnotationResult}

theorem reconcileNativeIds_untouched (now : Int) {id : String} {ids : List String}
    (absent : id ∉ ids) : Untouched s (reconcileNativeIds now s ids) id := by
  unfold reconcileNativeIds
  split
  · refine foldl_rel (R := fun s s' => Untouched s s' id) (fun s => .refl s _) .trans
      fun s other member => ?_
    refine (reconcileNativeId_reconciled now s other).untouched ?_
    rintro rfl
    exact absent (List.mem_filter.mp member).1
  · exact .refl s _

/-- The record of a client after an input that was applied to it. -/
theorem Pushed.serves_iff (pushed : Pushed now deviceId s input s' result)
    (applied : result.status = .applied) (client : isStumpNativeAnnotationId input.id = false) :
    (∃ row, findAnnotationRow s' input.id = some row ∧ Serves (annotationRecord row) input) ↔
      ∀ stored, findAnnotationRow s input.id = some stored → stored.workId = input.workId := by
  cases pushed with
  | refused _ status => exact absurd applied status
  | @updated stored written rewritten found live current valid rewrite =>
    cases rewrite with
    | client =>
      have keeps (row : StoredAnnotation) :
          (updatedRow now deviceId input stored (s.annotationSeq + 1) row).id = row.id := rfl
      rw [updateRow_record keeps, found, Option.map_some]
      constructor
      · rintro ⟨row, same, serves⟩ held known
        cases same
        cases known
        simpa [annotationRecord, updatedRow] using serves.workId
      · intro same
        have work := same stored rfl
        refine ⟨_, rfl, ?_⟩
        constructor <;> simp [annotationRecord, updatedRow, work]
    | mark parsed | bookmark parsed => simp [isStumpNativeAnnotationId_of_parse parsed] at client
  | created absent =>
    refine iff_of_true ?_ (by simp [absent])
    refine ⟨createdRow now deviceId input (s.annotationSeq + 1), ?_, ?_⟩
    · rw [insertRow_record, absent]
      simp [createdRow]
    · constructor <;> simp [annotationRecord, createdRow]

end Applied

section Sample

local instance storedHost : Host := Host.sample

/-- The note with another text. -/
def sampleRewrite : AnnotationInput := { sampleNote with baseRev := 1, body := "again" }

/-- The account after a batch that makes the note and rewrites it. -/
def sampleRewritten : Store :=
  (commit sampleAccount
    (appendAnnotations (sampleHour 1) "device" sampleAccount [sampleNote, sampleRewrite])).1

/-- The account with a second work, after a push of the note. -/
def sampleShelved : CasWorld :=
  CasWorld.push (sampleHour 1) "a"
    ⟨{ sampleAccount with
        works := sampleAccount.works ++
          [{ id := "other", title := "", author := "", pending := false, createdAt := "" }] }, []⟩
    [sampleNote]

/-- The note moved to the second work. -/
def sampleMove : AnnotationInput := { sampleNote with baseRev := 1, workId := "other" }

end Sample
end Coppice.LiseurSync
