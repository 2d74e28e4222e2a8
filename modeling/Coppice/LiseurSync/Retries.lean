import Coppice.LiseurSync.NativeRows
import Coppice.LiseurSync.Styles

/-!
# Retried pushes

A device that lost an answer sends the same input again. The store recognises it
by the revision and the stored payload. For a record a client owns that payload
is the input. For a native mirror it is the input after write-back, so a retry
is recognised exactly when write-back had nothing to rewrite. Reconciliation
runs before the comparison; after a write-back the mirror already holds what its
native row exports, so it has nothing to do.
-/

namespace Coppice.LiseurSync

open Coppice.Std Models Models.Store

theorem nonempty_getD (text : String) : (nonempty text).getD "" = text := by
  unfold nonempty
  split
  · rename_i empty
    exact empty.symm
  · rfl

theorem palette_of_known {color : String} (known : color = "" ∨ color ∈ annotationColors) :
    ((nonempty color).filter (· ∈ annotationColors)).getD "" = color := by
  unfold nonempty
  split
  · rename_i empty
    simp [empty]
  · rename_i nonempty
    simp [Option.filter, known.resolve_left nonempty]

variable {now : Int} {deviceId id : String} {s s' s'' : Store} {input rewritten : AnnotationInput}
  {stored row : StoredAnnotation} {result : AnnotationResult} {results : List AnnotationResult}

section Candidates

variable [Host] {locator : ReadiumLocator} {candidate : NativeAnnotationCandidate}
  {link : NativeMediaLink}

/-- What write-back can rely on about the locator it leaves. -/
theorem nativeUpdateLocator_some {kind : String}
    (placed : nativeUpdateLocator kind input stored = some locator) :
    ReadiumLocator.usable locator = true ∧
      (kind = "note" → ReadiumLocator.highlight locator = none) ∧
      (kind = "highlight" → blank (ReadiumLocator.highlight locator) = false) := by
  unfold nativeUpdateLocator at placed
  split at placed
  · cases placed
  rename_i parsed _
  split at placed
  · cases placed
  rename_i usable
  have usable : ReadiumLocator.usable parsed = true := by simpa using usable
  split at placed
  · cases placed
    refine ⟨usable, fun _ => ?_, fun same => absurd same (by decide)⟩
    cases text : parsed.text <;>
      simp [ReadiumLocator.highlight, ReadiumLocator.withoutHighlight, text]
  · simp only [Option.ite_none_left_eq_some, Option.some.injEq] at placed
    obtain ⟨marked, rfl⟩ := placed
    refine ⟨?_, fun same => absurd same (by decide), fun _ => by simpa using marked⟩
    split
    · exact usable
    · exact usable
  · cases placed
    exact ⟨usable, fun same => absurd same (by decide), fun same => absurd same (by decide)⟩
  · cases placed

/-- A `media_annotations` row exports what was written back to it. -/
theorem writtenMark_candidate (now : Int) {row : MediaAnnotation}
    (exports : mediaAnnotationCandidate row link = some candidate) (styled : StyledInput input)
    (noted : input.kind = "note" → input.body ≠ "")
    (kind : input.kind = "note" ∨ input.kind = "highlight")
    (placed : nativeUpdateLocator input.kind input stored = some locator) :
    mediaAnnotationCandidate (writtenMark now input stored locator row) link =
      some { candidate with
        id := stumpNativeAnnotationId .mark row.id, kind := input.kind
        locator := locator.toValue, progression := nativeProgression locator
        excerpt := (markInput input stored locator).excerpt
        color := annotationColorForUpdate input stored, body := input.body
        clientTs := Host.toRfc3339Nanos row.createdAt, updatedAt := nowString now } := by
  obtain ⟨⟨-, own⟩, textual, short, work, edition⟩ := mediaAnnotationCandidate_some exports
  obtain ⟨usable, unmarked, marked⟩ := nativeUpdateLocator_some placed
  rcases kind with note | highlight
  · have empty : trim "" = "" := by decide
    have colorless : annotationColorForUpdate input stored = "" := by
      simp [annotationColorForUpdate, note]
    simp [mediaAnnotationCandidate, writtenMark, own, textual, usable, unmarked note, empty,
      nonempty_getD, noted note, not_lt.mpr short, work, edition, markInput, note, colorless,
      nowString]
  · have excerpt := marked highlight
    simp only [blank, decide_eq_false_iff_not] at excerpt
    simp [mediaAnnotationCandidate, writtenMark, own, textual, usable, excerpt, nonempty_getD,
      not_lt.mpr short, work, edition, markInput, highlight, nowString,
      palette_of_known (annotationColorForUpdate_known styled)]

/-- A `bookmarks` row exports what was written back to it. -/
theorem writtenBookmark_candidate {row : Bookmark}
    (exports : bookmarkCandidate row link = some candidate)
    (placed : nativeUpdateLocator input.kind input stored = some locator) :
    bookmarkCandidate (writtenBookmark input locator row) link =
      some { candidate with
        id := stumpNativeAnnotationId .bookmark row.id, kind := "bookmark"
        locator := locator.toValue, progression := nativeProgression locator
        excerpt := (bookmarkPreview input locator).getD "", color := "", body := ""
        clientTs := Host.toRfc3339Nanos row.createdAt
        updatedAt := Host.toRfc3339Nanos row.createdAt } := by
  obtain ⟨⟨-, own⟩, short, work, edition⟩ := bookmarkCandidate_some exports
  obtain ⟨usable, -, -⟩ := nativeUpdateLocator_some placed
  have preview : (((bookmarkPreview input locator).filter (· ≠ "")).or
      (ReadiumLocator.highlight locator)).getD "" = (bookmarkPreview input locator).getD "" := by
    unfold bookmarkPreview nonempty
    split
    · cases ReadiumLocator.highlight locator with
      | none => rfl
      | some text => by_cases empty : text = "" <;> simp [Option.filter, empty]
    · rename_i excerpt
      simp [Option.filter, excerpt]
  have located : (some locator).filter ReadiumLocator.usable = some locator := by
    simp [Option.filter, usable]
  simp only [bookmarkCandidate, writtenBookmark, own, Bool.false_eq_true, if_false, located,
    not_lt.mpr short, preview, work, edition]

end Candidates

section Following

variable [Host]

/-- A write that leaves the record and what its native row exports alone. -/
structure Untouched (s s' : Store) (id : String) : Prop where
  record : findAnnotationRow s' id = findAnnotationRow s id
  exported : nativeCandidateForId s' id = nativeCandidateForId s id
  account : s'.loginUser = s.loginUser

theorem Untouched.refl (s : Store) (id : String) : Untouched s s id := ⟨rfl, rfl, rfl⟩

theorem Untouched.trans (first : Untouched s s' id) (second : Untouched s' s'' id) :
    Untouched s s'' id :=
  ⟨second.record.trans first.record, second.exported.trans first.exported,
    second.account.trans first.account⟩

/-- A write of the lane changes nothing a native row exports. -/
theorem Untouched.of_lane (frame : LaneOnly s s')
    (record : findAnnotationRow s' id = findAnnotationRow s id) : Untouched s s' id := by
  unfold LaneOnly at frame
  refine ⟨record, ?_, ?_⟩
  · rw [frame]
    rfl
  · rw [frame]

/-- The mirror follows its native row as long as the account has a user. -/
def Matched (s : Store) (id : String) : Prop := s.loginUser = true → Follows s id

theorem Untouched.matched (untouched : Untouched s s' id) (matched : Matched s id) :
    Matched s' id := by
  unfold Matched Follows
  rw [untouched.record, untouched.exported, untouched.account]
  exact matched

/-- Reconciling an identity leaves its mirror following its row. -/
theorem Reconciled.follows (reconciled : Reconciled now s id s') : Follows s' id := by
  cases reconciled with
  | settled follows => exact follows
  | @created candidate exports identity absent =>
    intro row found _
    refine ⟨candidate, exports, ?_⟩
    rw [insertRow_record, absent, if_pos (show (mirrorOf candidate _).id = id from identity)]
      at found
    cases found
    simp [nativeCandidateMatches, mirrorOf, timestampsMatch_refl]
  | @refreshed candidate stored exports held =>
    intro row found _
    refine ⟨candidate, exports, ?_⟩
    rw [updateRow_record, held] at found
    · cases found
      simp [nativeCandidateMatches, refreshMirror, timestampsMatch_refl]
    · exact fun _ => rfl
  | retired held =>
    intro row found live
    rw [updateRow_record, held] at found
    · cases found
      cases live
    · exact fun _ => rfl

/-- Reconciling one identity leaves the others alone. -/
theorem Reconciled.untouched {other : String} (reconciled : Reconciled now s other s')
    (differ : id ≠ other) : Untouched s s' id := by
  cases reconciled with
  | settled => exact .refl s id
  | @created candidate exports identity absent =>
    refine .of_lane rfl ?_
    rw [insertRow_record, if_neg, Option.or_none]
    rintro rfl
    exact differ identity
  | refreshed | retired => exact .of_lane rfl (updateRow_record_of_ne differ fun _ => rfl)

/-- A loop over identities leaves one followed that is still ahead in the list, or
that was followed already. -/
theorem foldl_reconcileNativeId_matched (now : Int) {names : List String}
    (ahead : id ∈ names ∨ Matched s id) :
    Matched (names.foldl (fun s id => reconcileNativeId now s id none) s) id := by
  induction names generalizing s with
  | nil => exact ahead.resolve_left (by simp)
  | cons other rest ih =>
    refine ih ?_
    have reconciled := reconcileNativeId_reconciled now s other
    by_cases same : id = other
    · subst same
      exact .inr fun _ => reconciled.follows
    · refine ahead.imp (fun member => ?_) (reconciled.untouched same).matched
      exact (List.mem_cons.mp member).resolve_left same

/-- Every native identity a request names is followed once its transaction has
reconciled. -/
theorem reconcileNativeIds_matched (now : Int) {ids : List String} (named : id ∈ ids)
    (native : isStumpNativeAnnotationId id = true) : Matched (reconcileNativeIds now s ids) id := by
  unfold reconcileNativeIds
  split
  · exact foldl_reconcileNativeId_matched now (.inl (List.mem_filter.mpr ⟨named, native⟩))
  · rename_i account
    exact fun present => absurd present account

/-- A followed mirror that is live needs no reconciling. -/
theorem reconcileNativeIds_of_matched (now : Int)
    (matched : isStumpNativeAnnotationId id = true → Matched s id)
    (found : findAnnotationRow s id = some row) (live : row.deleted = false) :
    reconcileNativeIds now s [id] = s := by
  unfold reconcileNativeIds
  split
  · rename_i account
    cases native : isStumpNativeAnnotationId id with
    | false => simp [native]
    | true =>
      obtain ⟨candidate, exported, matching⟩ := matched native account row found live
      simp [native, reconcileNativeId, exported, found, reconcileNativeCandidate, matching]
  · rfl

end Following

section Pushes

variable [Host]

/-- Which kinds a native row takes an update of. -/
theorem invalidReason_kind {kind : NativeKind} {nativeId : String}
    (valid : invalidReason input stored = none)
    (parsed : parseStumpNativeAnnotationId input.id = some (kind, nativeId)) :
    (kind = .mark ∧ (input.kind = "note" ∨ input.kind = "highlight")) ∨
      (kind = .bookmark ∧ input.kind = "bookmark") := by
  have native := isStumpNativeAnnotationId_of_parse parsed
  simp only [invalidReason, native, if_true, nativeUpdateInvalidReason, parsed] at valid
  split_ifs at valid with _ mark _ bookmark
  · exact .inl mark
  · exact .inr bookmark

/-- An input leaves every other record and its native row alone. -/
theorem Pushed.untouched (pushed : Pushed now deviceId s input s' result) (differ : id ≠ input.id) :
    Untouched s s' id := by
  refine ⟨pushed.other differ, ?_, ?_⟩
  · cases pushed with
    | refused => rfl
    | @updated stored written rewritten found live current valid rewrite =>
      have kept : nativeCandidateForId written id = nativeCandidateForId s id := by
        refine nativeCandidateForId_congr rewrite.nativeOnly fun kind nativeId parsed _ =>
          rewrite.rows fun same => differ ?_
        rw [eq_of_parseStumpNativeAnnotationId parsed, eq_of_parseStumpNativeAnnotationId same]
      exact kept
    | created => rfl
  · have frame := pushed.annotationWrite.frame
    rw [frame]

/-- A projection touches no record and no row a mirror follows. -/
theorem projectIfApplied_untouched
    (success : projectIfApplied s results = .ok s') (id : String) : Untouched s s' id := by
  have frame := projectIfApplied_nativeOnly success
  refine ⟨frame.record id, ?_, ?_⟩
  · exact nativeCandidateForId_congr frame fun kind nativeId _ source =>
      projectIfApplied_source success source kind
  · rw [frame]

/-- A row that was written back exports what is stored of the update. -/
theorem Rewritten.follows {written : Store}
    (rewrite : Rewritten now s input stored written rewritten)
    (valid : validateAnnotation now input = .ok ()) (accepted : invalidReason input stored = none)
    (native : isStumpNativeAnnotationId input.id = true)
    (exported : nativeCandidateForId s input.id = some candidate)
    (matching : nativeCandidateMatches stored candidate = true) (deviceId : String) (seq : Nat) :
    ∃ after, nativeCandidateForId written input.id = some after ∧
      nativeCandidateMatches (updatedRow now deviceId rewritten stored seq stored) after =
        true := by
  simp only [nativeCandidateMatches, Bool.and_eq_true, decide_eq_true_eq] at matching
  obtain ⟨⟨⟨⟨⟨⟨⟨⟨⟨-, work⟩, edition⟩, -⟩, -⟩, -⟩, -⟩, -⟩, -⟩, -⟩ := matching
  cases rewrite with
  | client client =>
    rw [native] at client
    cases client
  | @mark nativeId locator parsed placed exists_ =>
    have kind : input.kind = "note" ∨ input.kind = "highlight" := by
      simpa using invalidReason_kind accepted parsed
    obtain ⟨-, noted, -⟩ := validateKind_ok (validateAnnotation_ok valid).1
    simp only [nativeCandidateForId, parsed, Option.bind_eq_some_iff] at exported
    obtain ⟨source, held, link, readable, exports⟩ := exported
    have after := writtenMark_candidate now exports (styledInput_of_valid valid) noted kind placed
    have reexported : nativeCandidateForId
        { s with
          mediaAnnotations := updateAt MediaAnnotation.id nativeId
            (writtenMark now input stored locator) s.mediaAnnotations } input.id =
        mediaAnnotationCandidate (writtenMark now input stored locator source) link := by
      simp only [nativeCandidateForId, parsed]
      rw [lookup_updateAt_self, held]
      · exact congrArg (Option.bind · _) readable
      · exact fun _ same => same
    refine ⟨_, reexported.trans after, ?_⟩
    have color : annotationColorForUpdate (markInput input stored locator) stored =
        annotationColorForUpdate input stored := by
      rcases kind with note | highlight
      · simp [annotationColorForUpdate, markInput, note]
      · simp [annotationColorForUpdate, markInput, highlight]
    simp [nativeCandidateMatches, updatedRow, color, work, timestampsMatch_refl]
    simp [markInput, edition]
  | @bookmark nativeId locator parsed placed exists_ =>
    have kind : input.kind = "bookmark" := by simpa using invalidReason_kind accepted parsed
    simp only [nativeCandidateForId, parsed, Option.bind_eq_some_iff] at exported
    obtain ⟨source, held, link, readable, exports⟩ := exported
    have reexported : nativeCandidateForId
        { s with
          bookmarks := updateAt Bookmark.id nativeId (writtenBookmark input locator) s.bookmarks }
        input.id = bookmarkCandidate (writtenBookmark input locator source) link := by
      simp only [nativeCandidateForId, parsed]
      rw [lookup_updateAt_self, held]
      · exact congrArg (Option.bind · _) readable
      · exact fun _ same => same
    refine ⟨_, reexported.trans (writtenBookmark_candidate exports placed), ?_⟩
    simp [nativeCandidateMatches, updatedRow, annotationColorForUpdate, bookmarkInput, kind, work,
      edition]

/-- After an update its mirror still follows its native row, which was written
first. -/
theorem Pushed.matched (pushed : Pushed now deviceId s input s' result)
    (valid : validateAnnotation now input = .ok ())
    (native : isStumpNativeAnnotationId input.id = true) (matched : Matched s input.id) :
    Matched s' input.id := by
  cases pushed with
  | refused => exact matched
  | created absent zero client =>
    rw [native] at client
    cases client
  | @updated stored written rewritten found live current accepted rewrite =>
    intro account row stores _
    have frame := rewrite.nativeOnly
    obtain ⟨candidate, exported, matching⟩ :=
      matched (by rw [frame] at account; exact account) stored found live
    have rowIs : row = updatedRow now deviceId rewritten stored (written.annotationSeq + 1)
        stored := by
      rw [rewrite.id, updateRow_record, rewrite.nativeOnly.record, found] at stores
      · exact (Option.some.inj stores).symm
      · exact fun _ => rfl
    rw [rowIs]
    exact rewrite.follows valid accepted native exported matching deviceId _

end Pushes

section Retry

/-- A payload names every field of its input; only a locator that is absent and
one that is `null` read the same. -/
theorem annotationPayload_injective {left right : AnnotationInput} {locator : Json}
    (placed : left.locator = some locator) (real : locator ≠ .null)
    (same : annotationPayload left = annotationPayload right) : left = right := by
  have text := Json.ofOption_injective (fun _ _ => Json.str.inj) nofun
  have number := Json.ofOption_injective (fun _ _ => Json.float.inj) nofun
  have place : Json.ofOption id left.locator = Json.ofOption id right.locator →
      left.locator = right.locator := by
    rw [placed]
    cases right.locator with
    | none => exact fun null => absurd null real
    | some other => exact fun equal => congrArg some equal
  obtain ⟨_, _, _, _, _, _, _, _, color, drawer, _, _⟩ := left
  obtain ⟨_, _, _, _, _, _, _, _, otherColor, otherDrawer, _, _⟩ := right
  -- A color or drawer on one side only changes the number of members.
  cases color <;> cases drawer <;> cases otherColor <;> cases otherDrawer <;>
    simp [annotationPayload, present, text.eq_iff, number.eq_iff] at same place ⊢
  all_goals simp_all

variable [Host]

/-- Write-back has nothing to rewrite: over the mirror a push finds, the input is
for its edition, names the place and the color that would be stored in the form
they are stored in, and quotes what the place highlights; a note quotes nothing
and a bookmark has no text of its own. -/
structure Restates (input : AnnotationInput) (mirror : StoredAnnotation)
    (locator : ReadiumLocator) : Prop where
  place : nativeUpdateLocator input.kind input mirror = some locator
  written : input.locator = some locator.toValue
  edition : input.editionSha = mirror.editionSha
  progression : input.progression = nativeProgression locator
  color : input.color = some (annotationColorForUpdate input mirror)
  highlight : input.kind = "highlight" →
    input.excerpt = (ReadiumLocator.highlight locator).getD ""
  note : input.kind = "note" → input.excerpt = ""
  bookmark : input.kind = "bookmark" → input.body = "" ∧
    (input.excerpt = "" → (ReadiumLocator.highlight locator).getD "" = "")

theorem markInput_eq_iff {locator : ReadiumLocator}
    (kind : input.kind = "note" ∨ input.kind = "highlight")
    (placed : nativeUpdateLocator input.kind input stored = some locator) :
    markInput input stored locator = input ↔ ∃ place, Restates input stored place := by
  have excerpt : (markInput input stored locator).excerpt = input.excerpt ↔
      (input.kind = "highlight" → input.excerpt = (ReadiumLocator.highlight locator).getD "") ∧
        (input.kind = "note" → input.excerpt = "") := by
    rcases kind with note | highlight
    · have quoted : (markInput input stored locator).excerpt = "" := by simp [markInput, note]
      rw [quoted, eq_comm]
      simp [note]
    · have quoted : (markInput input stored locator).excerpt =
          (ReadiumLocator.highlight locator).getD "" := by simp [markInput, highlight]
      rw [quoted, eq_comm]
      simp [highlight]
  constructor
  · intro same
    obtain ⟨highlight, note⟩ := excerpt.mp (congrArg AnnotationInput.excerpt same)
    refine ⟨locator, placed, (congrArg AnnotationInput.locator same).symm,
      (congrArg AnnotationInput.editionSha same).symm,
      (congrArg AnnotationInput.progression same).symm,
      (congrArg AnnotationInput.color same).symm, highlight, note, fun bookmark => ?_⟩
    simp [bookmark] at kind
  · rintro ⟨place, restates⟩
    obtain rfl : locator = place := Option.some.inj (placed.symm.trans restates.place)
    have quoted := excerpt.mpr ⟨restates.highlight, restates.note⟩
    rw [show markInput input stored locator = { input with
        editionSha := stored.editionSha, progression := nativeProgression locator
        excerpt := (markInput input stored locator).excerpt
        color := some (annotationColorForUpdate input stored)
        locator := some locator.toValue } from rfl,
      quoted, ← restates.edition, ← restates.progression, ← restates.color, ← restates.written]

theorem bookmarkInput_eq_iff {locator : ReadiumLocator} (kind : input.kind = "bookmark")
    (placed : nativeUpdateLocator input.kind input stored = some locator) :
    bookmarkInput input stored locator = input ↔ ∃ place, Restates input stored place := by
  have colorless : annotationColorForUpdate input stored = "" := by
    simp [annotationColorForUpdate, kind]
  have excerpt : (bookmarkPreview input locator).getD "" = input.excerpt ↔
      (input.excerpt = "" → (ReadiumLocator.highlight locator).getD "" = "") := by
    unfold bookmarkPreview nonempty
    by_cases empty : input.excerpt = ""
    · simp [empty]
    · simp [empty]
  constructor
  · intro same
    refine ⟨locator, placed, (congrArg AnnotationInput.locator same).symm,
      (congrArg AnnotationInput.editionSha same).symm,
      (congrArg AnnotationInput.progression same).symm, ?_, ?_, ?_, fun _ =>
      ⟨(congrArg AnnotationInput.body same).symm,
        excerpt.mp (congrArg AnnotationInput.excerpt same)⟩⟩
    · rw [colorless]
      exact (congrArg AnnotationInput.color same).symm
    · simp [kind]
    · simp [kind]
  · rintro ⟨place, restates⟩
    obtain rfl : locator = place := Option.some.inj (placed.symm.trans restates.place)
    obtain ⟨body, quoted⟩ := restates.bookmark kind
    have color := restates.color
    rw [colorless] at color
    rw [bookmarkInput, excerpt.mpr quoted, ← restates.edition, ← restates.progression, ← color,
      ← restates.written]
    rw [← body]

/-- When write-back has nothing to rewrite. -/
theorem Rewritten.eq_iff (rewrite : Rewritten now s input stored s' rewritten)
    (accepted : invalidReason input stored = none) :
    rewritten = input ↔
      isStumpNativeAnnotationId input.id = false ∨ ∃ locator, Restates input stored locator := by
  cases rewrite with
  | client client => simp [client]
  | mark parsed placed exists_ =>
    have kind : input.kind = "note" ∨ input.kind = "highlight" := by
      simpa using invalidReason_kind accepted parsed
    simpa [isStumpNativeAnnotationId_of_parse parsed] using markInput_eq_iff kind placed
  | bookmark parsed placed exists_ =>
    have kind : input.kind = "bookmark" := by simpa using invalidReason_kind accepted parsed
    simpa [isStumpNativeAnnotationId_of_parse parsed] using bookmarkInput_eq_iff kind placed

/-- The stored payload is the input's when write-back had nothing to rewrite. -/
theorem Rewritten.payload_eq_iff (rewrite : Rewritten now s input stored s' rewritten) :
    annotationPayload rewritten = annotationPayload input ↔ rewritten = input := by
  refine ⟨fun same => ?_, fun same => by rw [same]⟩
  cases rewrite with
  | client => rfl
  | mark | bookmark => exact annotationPayload_injective rfl nofun same

/-- What is stored of an applied input. -/
theorem Pushed.applied_record (pushed : Pushed now deviceId s input s' result)
    (applied : result.status = .applied) :
    s.workExists input.workId = true ∧ ∃ row, findAnnotationRow s' input.id = some row ∧
      row.deleted = false ∧ row.rev = input.baseRev + 1 ∧ result.rev = some row.rev ∧
      row.deviceId = deviceId ∧
      (row.payload = annotationPayload input ↔ isStumpNativeAnnotationId input.id = false ∨
        ∃ mirror place, findAnnotationRow s input.id = some mirror ∧
          Restates input mirror place) := by
  cases pushed with
  | refused identity status => exact absurd applied status
  | @updated stored written rewritten found live current accepted rewrite known =>
    refine ⟨known, updatedRow now deviceId rewritten stored (written.annotationSeq + 1) stored, ?_,
      rfl, by simp [updatedRow, current], rfl, rfl, ?_⟩
    · rw [rewrite.id, updateRow_record, rewrite.nativeOnly.record, found]
      · rfl
      · exact fun _ => rfl
    · simpa [updatedRow, found] using rewrite.payload_eq_iff.trans (rewrite.eq_iff accepted)
  | created absent zero client known =>
    refine ⟨known, createdRow now deviceId input (s.annotationSeq + 1), ?_, rfl,
      by simp [createdRow, zero], rfl, rfl, by simp [createdRow, client]⟩
    rw [insertRow_record, absent]
    simp [createdRow]

/-- An input answered without a write, alone in its batch. -/
theorem appendAnnotations_of_refused (reconciled : reconcileNativeIds now s [input.id] = s)
    (item : pushItem now deviceId 0 s input = .ok (s, result)) (status : result.status ≠ .applied) :
    appendAnnotations now deviceId s [input] = .ok (s, [result]) := by
  refine appendAnnotations_eq_ok.mpr ⟨s, ?_, by simp [projectIfApplied, status]⟩
  rw [List.map_singleton, reconciled]
  exact Batch.run_cons_ok.mpr ⟨s, result, [], item, rfl, rfl⟩

/-- How a repeated input is answered: by the revision it was made on and the
payload that was stored. -/
theorem pushItem_repeated (known : s.workExists input.workId = true)
    (found : findAnnotationRow s input.id = some row) (live : row.deleted = false)
    (next : row.rev = input.baseRev + 1) (device : row.deviceId = deviceId) :
    pushItem now deviceId 0 s input = .ok (s,
      if row.payload = annotationPayload input then
        { id := input.id, status := .duplicate, rev := some row.rev, seq := some row.seq
          reason := none, server := none }
      else conflictResult input.id "annotation revision conflict" row) := by
  unfold pushItem
  rw [if_neg (by simp [known]), found]
  by_cases same : row.payload = annotationPayload input
  · simp [pushExisting, live, next, annotationsSamePayload, device, same]
  · simp [pushExisting, live, next, annotationsSamePayload, same]

/-- A run of valid inputs keeps a followed mirror followed. -/
theorem run_matched {inputs : List AnnotationInput} {index : Nat}
    (valid : ∀ input ∈ inputs, validateAnnotation now input = .ok ())
    (native : isStumpNativeAnnotationId id = true)
    (success : Batch.run (pushItem now deviceId) index s inputs = .ok (s', results))
    (matched : Matched s id) : Matched s' id := by
  refine Batch.run_keeps (I := (Matched · id)) ?_ success matched
  intro _ s input next _ member item matched
  by_cases same : id = input.id
  · subst same
    exact (pushItem_pushed item).matched (valid input member) native matched
  · exact ((pushItem_pushed item).untouched same).matched matched

/-- A push that was applied and is sent again, with nothing else done to the
record or the row behind it, is answered as a duplicate of the same revision and
changes nothing exactly when a client owns the record or the input restates the
mirror it found. -/
theorem retried_push_duplicate_iff (now later : Int) (deviceId : String) (s : Store)
    (before after : List AnnotationInput) (input : AnnotationInput)
    (valid : ∀ item ∈ before ++ input :: after, validateAnnotation now item = .ok ())
    (last : ∀ other ∈ after, other.id ≠ input.id)
    (s' : Store) (results : List AnnotationResult) (result : AnnotationResult)
    (success : appendAnnotations now deviceId s (before ++ input :: after) = .ok (s', results))
    (answered : results[before.length]? = some result) (applied : result.status = .applied)
    (retried : Store) (quiet : Untouched s' retried input.id)
    (works : s'.workExists input.workId = true → retried.workExists input.workId = true) :
    ∃ row middle early, findAnnotationRow s' input.id = some row ∧ result.rev = some row.rev ∧
      Batch.run (pushItem now deviceId) 0
        (reconcileNativeIds now s ((before ++ input :: after).map AnnotationInput.id)) before =
          .ok (middle, early) ∧
      ((∃ answer, appendAnnotations later deviceId retried [input] = .ok (retried, [answer]) ∧
          answer.status = .duplicate ∧ answer.rev = result.rev) ↔
        isStumpNativeAnnotationId input.id = false ∨
          ∃ mirror place, findAnnotationRow middle input.id = some mirror ∧
            Restates input mirror place) := by
  obtain ⟨middle, next, pushed, early, late, first, item, rest, projected⟩ :=
    appendAnnotations_item success answered
  obtain ⟨known, row, found, live, rev, answeredRev, device, payload⟩ :=
    (pushItem_pushed item).applied_record applied
  -- Nothing after the item touches the record or the row behind it.
  have settled : Untouched next retried input.id := by
    have others : Untouched next pushed input.id :=
      Batch.run_rel (R := fun s s' => Untouched s s' input.id) (fun s => .refl s _) .trans
        (fun _ _ other _ _ member step =>
          (pushItem_pushed step).untouched (last other member).symm) rest
    exact others.trans ((projectIfApplied_untouched projected _).trans quiet)
  have matched (native : isStumpNativeAnnotationId input.id = true) : Matched retried input.id := by
    have named : input.id ∈ (before ++ input :: after).map AnnotationInput.id := by simp
    have start := reconcileNativeIds_matched (s := s) now named native
    have ran := run_matched (fun other member => valid other (by simp [member])) native first start
    exact settled.matched ((pushItem_pushed item).matched (valid input (by simp)) native ran)
  have exists_ : retried.workExists input.workId = true := by
    refine works ?_
    have early : AnnotationsOnly s middle :=
      (reconcileNativeIds_edits now _).laneWrite.frame.annotationsOnly.trans
        (Batch.run_rel .refl .trans
          (fun _ _ _ _ _ _ step => (pushItem_pushed step).annotationWrite.frame) first)
    unfold workExists at known ⊢
    rwa [(appendAnnotations_annotationWrite success).frame.works, ← early.works]
  have held : findAnnotationRow retried input.id = some row := settled.record.trans found
  have unchanged : findAnnotationRow s' input.id = some row := quiet.record.symm.trans held
  refine ⟨row, middle, early, unchanged, answeredRev, first, ?_⟩
  have reconciled := reconcileNativeIds_of_matched later matched held live
  have repeated := appendAnnotations_of_refused reconciled
    (pushItem_repeated exists_ held live rev device) (by split <;> simp [conflictResult])
  rw [← payload, repeated]
  constructor
  · rintro ⟨answer, same, status, -⟩
    by_contra differ
    rw [if_neg differ] at same
    cases same
    simp [conflictResult] at status
  · intro same
    exact ⟨_, rfl, by simp [same], by simp [same, answeredRev]⟩

end Retry

section Sample

local instance retriesHost : Host := Host.sample

/-- The place of a highlight made in the web reader. -/
def samplePlace : ReadiumLocator :=
  { chapterTitle := "", href := "one.xhtml", title := none
    locations := some { fragments := none, progression := none, position := none
                        totalProgression := none, cssSelector := none, partialCfi := none }
    text := some { after := none, before := none, highlight := some "line" }
    koboSpan := none, type := defaultType }

/-- An account whose work is linked to a readable book with one such highlight. -/
def sampleLinked : Store :=
  { sampleAccount with
    media := [{
      id := "book", name := "book.epub", path := "/book.epub", pages := 100, hash := none
      koreaderHash := none, deleted := false, visible := true, audio := false, metadata := none }]
    links := [{
      id := "link", mediaId := "book", workId := "work", editionSha := "sha"
      resolutionStatus := .verified, createdAt := "", pairStatus := .confirmed
      pairEvidence := none }]
    mediaAnnotations := [{
      id := "m1", locator := samplePlace, positionMs := none, annotationText := none
      color := none, mediaId := "book", createdAt := sampleHour 0, updatedAt := sampleHour 0 }] }

/-- A device adds a note to the highlight. -/
def sampleEdit (color : Option String) : AnnotationInput :=
  { id := "stump-native:annotation:m1", baseRev := 1, workId := "work", editionSha := some "sha"
    kind := "highlight", locator := some samplePlace.toValue, progression := none
    excerpt := "line", color := color, drawer := none, body := "margin"
    clientTs := "2026-01-01T00:00:00.000000000Z" }

/-- The account after that push. -/
def sampleEdited (color : Option String) : Store :=
  (commit sampleLinked (appendAnnotations (sampleHour 1) "a" sampleLinked [sampleEdit color])).1

/-- How that push is answered when it is sent again. -/
def sampleRetry (color : Option String) : List AnnotationResult :=
  ((commit (sampleEdited color) (appendAnnotations (sampleHour 1) "a" (sampleEdited color)
    [sampleEdit color])).2.toOption).getD []

/-- The color the device left out is part of what is stored, so the same input
sent again is refused as made on an old revision. -/
theorem omitted_color_retry_conflicts :
    ∃ now deviceId s input s' results answers, validateAnnotation now input = .ok () ∧
      appendAnnotations now deviceId s [input] = .ok (s', results) ∧
      results.map AnnotationResult.status = [.applied] ∧
      appendAnnotations now deviceId s' [input] = .ok (s', answers) ∧
      answers.map AnnotationResult.status = [.conflict] :=
  ⟨sampleHour 1, "a", sampleLinked, sampleEdit none, sampleEdited none,
    [appliedResult "stump-native:annotation:m1" 2 2], sampleRetry none, by decide +kernel,
    by decide +kernel, rfl, by decide +kernel, by decide +kernel⟩

theorem retried_push_duplicate_iff_sample :
    ∃ answer, appendAnnotations (sampleHour 2) "a" (sampleEdited (some "")) [sampleEdit (some "")] =
        .ok (sampleEdited (some ""), [answer]) ∧ answer.status = .duplicate ∧
      answer.rev = some 2 := by
  obtain ⟨-, middle, early, -, -, ran, retry⟩ := retried_push_duplicate_iff (sampleHour 1)
    (sampleHour 2) "a" sampleLinked [] [] (sampleEdit (some "")) (by decide +kernel) (by simp)
    (sampleEdited (some "")) [appliedResult "stump-native:annotation:m1" 2 2]
    (appliedResult "stump-native:annotation:m1" 2 2) (by decide +kernel) rfl rfl
    (sampleEdited (some "")) (.refl _ _) id
  cases ran
  have mirrored : Option.map (fun mirror =>
      (mirror.editionSha, nativeUpdateLocator "highlight" (sampleEdit (some "")) mirror))
      (findAnnotationRow (reconcileNativeIds (sampleHour 1) sampleLinked
        ["stump-native:annotation:m1"]) "stump-native:annotation:m1") =
      some (some "sha", some samplePlace) := by
    decide +kernel
  obtain ⟨mirror, found, same⟩ := Option.map_eq_some_iff.mp mirrored
  obtain ⟨edition, place⟩ := Prod.mk.inj same
  refine retry.mpr (.inr ⟨mirror, samplePlace, found, place, rfl, edition.symm, rfl, ?_,
    fun _ => rfl, by decide, by decide⟩)
  simp [annotationColorForUpdate, sampleEdit]

end Sample
end Coppice.LiseurSync
