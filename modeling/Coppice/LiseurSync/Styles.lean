import Coppice.LiseurSync.Revisions

/-!
# Styles a client cannot see

A client without the extended capability is shown no drawer and no color outside
its palette. When it pushes a highlight back, the store infers both: the color
from the column, the drawer from the column, the stored payload and the locator,
in that order. The inference keeps what an extended client sees, except for a
drawer that was cleared while the locator still names one.
-/

namespace Coppice.LiseurSync

variable {drawer id other : String} {input rewritten : AnnotationInput}
  {row stored : StoredAnnotation} {inputs : List AnnotationInput} {result : AnnotationResult}

open Coppice.Std Models Models.Store

/-- The drawer a locator names. -/
def locatorDrawer (locator : Option Json) : Option String :=
  ((locator.bind (Json.get "drawer")).bind Json.asStr).filter (· ∈ annotationDrawers)

/-- An input that names only known styles. -/
structure StyledInput (input : AnnotationInput) : Prop where
  color : ∀ color ∈ input.color, color = "" ∨ color ∈ annotationColors
  drawer : ∀ drawer ∈ input.drawer, drawer = "" ∨ drawer ∈ annotationDrawers

/-- A row whose columns hold only known styles. -/
structure Styled (row : StoredAnnotation) : Prop where
  color : row.color = "" ∨ row.color ∈ annotationColors
  drawer : ∀ drawer ∈ row.drawer, drawer ∈ annotationDrawers

/-- Every row of the lane holds only known styles. -/
def StyledRows (s : Store) : Prop := ∀ row ∈ s.annotations, Styled row

theorem annotationDrawer_known (seen : annotationDrawer row = some drawer) :
    drawer ∈ annotationDrawers := by
  unfold annotationDrawer at seen
  split at seen
  · split at seen
    · rename_i known
      cases seen
      exact known
    · cases seen
  · split at seen
    all_goals
      simpa using (Option.filter_eq_some_iff.mp seen).2

theorem annotationColorForUpdate_known (styled : StyledInput input) :
    annotationColorForUpdate input stored = "" ∨
      annotationColorForUpdate input stored ∈ annotationColors := by
  unfold annotationColorForUpdate
  split
  · exact .inl rfl
  split
  · rename_i color given
    exact styled.color color given
  split
  · rename_i kept
    exact .inr kept.1
  · exact .inl rfl

theorem annotationDrawerForUpdate_known (styled : StyledInput input)
    (chosen : annotationDrawerForUpdate input stored = some drawer) :
    drawer ∈ annotationDrawers := by
  unfold annotationDrawerForUpdate at chosen
  split at chosen
  · cases chosen
  cases given : input.drawer with
  | none =>
    simp only [given] at chosen
    exact annotationDrawer_known chosen
  | some sent =>
    simp only [given, Option.ite_none_left_eq_some, Option.some.injEq] at chosen
    obtain ⟨nonempty, rfl⟩ := chosen
    exact (styled.drawer sent given).resolve_left nonempty

theorem palette_known (color : Option String) :
    (color.filter (· ∈ annotationColors)).getD "" = "" ∨
      (color.filter (· ∈ annotationColors)).getD "" ∈ annotationColors := by
  cases filtered : color.filter (· ∈ annotationColors) with
  | none => exact .inl rfl
  | some color => exact .inr (by simpa using (Option.filter_eq_some_iff.mp filtered).2)

section Writes

variable [Host] {now : Int} {s s' : Store} {deviceId : String}

theorem Exported.color_known {candidate : NativeAnnotationCandidate}
    (exported : Exported candidate) :
    candidate.color = "" ∨ candidate.color ∈ annotationColors := by
  cases exported with
  | mark exports =>
    unfold mediaAnnotationCandidate at exports
    split at exports
    · cases exports
    simp only [Option.ite_none_left_eq_some, Option.some.injEq] at exports
    rw [← exports.2]
    split_ifs
    all_goals
      first
      | exact .inl rfl
      | exact palette_known _
  | bookmark exports =>
    unfold bookmarkCandidate at exports
    split at exports
    · cases exports
    split at exports
    · cases exports
    · simp only [Option.ite_none_left_eq_some, Option.some.injEq] at exports
      rw [← exports.2]
      exact .inl rfl

theorem Rewritten.styled
    (rewrite : Rewritten now s input stored s' rewritten) (styled : StyledInput input) :
    StyledInput rewritten := by
  cases rewrite with
  | client => exact styled
  | mark =>
    refine ⟨fun color given => ?_, styled.drawer⟩
    rw [← Option.some.inj given]
    exact annotationColorForUpdate_known styled
  | bookmark => exact ⟨fun color given => .inl (Option.some.inj given).symm, styled.drawer⟩

/-- Mirrors take the color of their native row and leave the drawer alone. -/
theorem MirrorEdits.styled (edits : MirrorEdits s s') (rows : StyledRows s) : StyledRows s' :=
  edits.forall_rows (fun _ _ exported => ⟨exported.color_known, nofun⟩)
    (fun _ _ _ _ exported _ styled => ⟨exported.color_known, styled.drawer⟩)
    (fun _ _ _ _ _ styled => ⟨styled.color, styled.drawer⟩) rows

theorem Pushed.styled
    (pushed : Pushed now deviceId s input s' result) (known : StyledInput input)
    (rows : StyledRows s) : StyledRows s' := by
  refine pushed.forall_rows rows ?_ ?_
  · intro stored written rewritten seq row _ rewrite _ _
    have rewrittenKnown := rewrite.styled known
    exact ⟨annotationColorForUpdate_known rewrittenKnown,
      fun drawer => annotationDrawerForUpdate_known rewrittenKnown⟩
  intro _ seq
  refine ⟨?_, ?_⟩
  · simp only [createdRow]
    cases given : input.color with
    | none => exact .inl rfl
    | some color => exact known.color color given
  · intro drawer kept
    obtain ⟨given, nonempty⟩ := Option.filter_eq_some_iff.mp kept
    exact (known.drawer drawer given).resolve_left (by simpa using nonempty)

end Writes

section System

variable [Host] {s s' : Store} {results : List AnnotationResult}

/-- The writers of the lane; a pushed batch was validated. -/
inductive StyleStep (s : Store) : Store → Prop where
  | push (now : Int) (deviceId : String) (inputs : List AnnotationInput)
      (valid : ∀ input ∈ inputs, validateAnnotation now input = .ok ()) :
      StyleStep s (commit s (appendAnnotations now deviceId s inputs)).1
  | delete (now : Int) (id : String) (rev : Int) :
      StyleStep s (commit s <| deleteAnnotation now s id rev).1
  | sweep (now : Int) (after : Option String) :
      StyleStep s (commit s (sweepForPoll now s after)).1

/-- Runs from an account without records. -/
def styleSystem : System Store where
  Initial s := s.annotations = []
  Step := StyleStep

theorem styledInput_of_valid
    (valid : validateAnnotation now input = .ok ()) : StyledInput input := by
  obtain ⟨-, style, -⟩ := validateAnnotation_ok valid
  obtain ⟨color, drawer⟩ := validateStyle_ok style
  exact ⟨color, drawer⟩

theorem appendAnnotations_styled
    (valid : ∀ input ∈ inputs, validateAnnotation now input = .ok ())
    (success : appendAnnotations now deviceId s inputs = .ok (s', results)) (rows : StyledRows s) :
    StyledRows s' := by
  obtain ⟨pushed, run, projected⟩ := appendAnnotations_eq_ok.mp success
  unfold StyledRows
  rw [(projectIfApplied_nativeOnly projected).rows]
  refine Batch.run_keeps (I := StyledRows) ?_ run ((reconcileNativeIds_edits now _).styled rows)
  intro _ _ input _ _ member item
  exact (pushItem_pushed item).styled (styledInput_of_valid (valid input member))

theorem Deleted.styled {rev : Int} {result : DeleteAnnotationResult}
    (deletion : Deleted now s id rev s' result) (rows : StyledRows s) : StyledRows s' := by
  have reconciled := (reconcileNativeIds_edits now [id]).styled rows
  cases deletion with
  | gone => exact reconciled
  | stale => exact rows
  | applied found live current source projected =>
    unfold StyledRows
    rw [(reconcileAnnotationProjections_nativeOnly projected).rows]
    refine forall_updateRow ?_ fun row _ styled => ⟨styled.color, styled.drawer⟩
    rw [(deleteSource_nativeOnly source).rows]
    exact reconciled

theorem StyleStep.styled (transition : StyleStep s s') (rows : StyledRows s) : StyledRows s' := by
  cases transition with
  | push now deviceId inputs valid =>
    exact commit_of rows fun _ _ success => appendAnnotations_styled valid success rows
  | delete now id rev =>
    exact commit_of rows fun _ _ success => (deleteAnnotation_deleted success).styled rows
  | sweep now after =>
    refine commit_of rows fun _ _ success => ?_
    obtain ⟨projected, projection, shape⟩ := bind_eq_ok.mp success
    cases shape
    unfold StyledRows
    rw [(reconcileAnnotationProjections_nativeOnly projection).rows]
    exact (reconcileNativeWorks_edits now _).styled rows

theorem styled_of_reachable (reachable : styleSystem.Reachable s) : StyledRows s := by
  refine reachable.invariant (fun s (start : s.annotations = []) => ?_)
    fun s next (rows : StyledRows s) (transition : StyleStep s next) => transition.styled rows
  simp [StyledRows, start]

/-- Whatever is pushed, and whatever other clients' notes are taken over, a record that is served
names only known styles. -/
theorem served_styles_known (reachable : styleSystem.Reachable s) (stored : row ∈ s.annotations) :
    (∀ color ∈ (annotationRecord row).color, color ∈ annotationColors) ∧
      ∀ drawer ∈ (annotationRecord row).drawer, drawer ∈ annotationDrawers := by
  have styled := styled_of_reachable reachable row stored
  unfold annotationRecord nonempty
  split
  · simp
  · exact ⟨by simpa [or_iff_not_imp_left] using styled.color, fun _ => annotationDrawer_known⟩

end System

section Echo

/-- What a client without the extended capability is shown of a row. -/
def shownToLegacy (row : StoredAnnotation) : AnnotationRecord :=
  annotationRecordForClient (annotationRecord row) false

/-- Such a client pushes a record back with the style, kind and place it saw; the
rest of the input is its own. -/
structure LegacyEcho (row : StoredAnnotation) (input : AnnotationInput) : Prop where
  id : input.id = (shownToLegacy row).id
  baseRev : input.baseRev = (shownToLegacy row).rev
  kind : some input.kind = (shownToLegacy row).kind
  locator : input.locator = (shownToLegacy row).locator
  color : input.color = (shownToLegacy row).color
  drawer : input.drawer = none

/-- A client's highlight shows no drawer although its locator names one: the
drawer was cleared. -/
def Resurfaces (row : StoredAnnotation) : Prop :=
  isStumpNativeAnnotationId row.id = false ∧ annotationDrawer row = none ∧
    locatorDrawer row.locator ≠ none

theorem annotationPayload_drawer (input : AnnotationInput) :
    (annotationPayload input).get "drawer" = input.drawer.map .str := by
  cases color : input.color <;> cases drawer : input.drawer <;>
    simp [annotationPayload, Json.get, present, color, drawer]

theorem toValue_drawer (locator : ReadiumLocator) : locator.toValue.get "drawer" = none := rfl

/-- The column wins over the payload, and without both the locator decides. -/
theorem annotationDrawer_of_row (known : ∀ drawer ∈ row.drawer, drawer ∈ annotationDrawers)
    (silent : row.payload.get "drawer" = none) :
    annotationDrawer row = row.drawer.or (locatorDrawer row.locator) := by
  unfold annotationDrawer locatorDrawer
  cases column : row.drawer with
  | some drawer => simp [known drawer column]
  | none => simp [silent]

theorem LegacyEcho.highlight (echo : LegacyEcho row input)
    (live : row.deleted = false) (highlight : row.kind = "highlight") :
    input.kind = "highlight" := by
  simpa [shownToLegacy, annotationRecordForClient, annotationRecord, live, highlight]
    using echo.kind

/-- The color a legacy client sends back stores the color that was there. -/
theorem annotationColorForUpdate_echo (live : row.deleted = false)
    (highlight : row.kind = "highlight") (styled : Styled row) (echo : LegacyEcho row input) :
    annotationColorForUpdate input row = row.color := by
  have kind := echo.highlight live highlight
  have color : input.color = (nonempty row.color).filter (· ∈ liseurAnnotationColors) := by
    simpa [shownToLegacy, annotationRecordForClient, annotationRecord, live] using echo.color
  unfold annotationColorForUpdate
  rw [if_neg (not_not.mpr kind), color]
  by_cases empty : row.color = ""
  · simp [nonempty, empty, annotationColors]
  have palette := styled.color.resolve_left empty
  by_cases legacy : row.color ∈ liseurAnnotationColors
  · simp [nonempty, empty, Option.filter, legacy]
  · simp [nonempty, empty, Option.filter, legacy, palette]

section Push

/-- Reconciling a native identity leaves a record alone or moves it past its
revision. -/
def Outdates (s s' : Store) (id : String) : Prop :=
  ∀ row, findAnnotationRow s id = some row →
    ∃ later, findAnnotationRow s' id = some later ∧ (later = row ∨ row.rev < later.rev)

theorem Outdates.refl (s : Store) (id : String) : Outdates s s id :=
  fun row found => ⟨row, found, .inl rfl⟩

theorem Outdates.trans {a b c : Store} (first : Outdates a b id)
    (second : Outdates b c id) : Outdates a c id := by
  intro row found
  obtain ⟨middle, middleFound, kept⟩ := first row found
  obtain ⟨later, laterFound, moved⟩ := second middle middleFound
  refine ⟨later, laterFound, ?_⟩
  rcases kept with rfl | older
  · exact moved
  · rcases moved with rfl | newer
    · exact .inr older
    · exact .inr (older.trans newer)

theorem outdates_of_update {id : String} {f : StoredAnnotation → StoredAnnotation}
    (keeps : ∀ row, (f row).id = row.id)
    (newer : ∀ row, findAnnotationRow s other = some row → row.rev < (f row).rev) :
    Outdates s (updateRow (nextAnnotationSeq s).1 other f) id := by
  intro row found
  by_cases same : id = other
  · subst same
    exact ⟨f row, by rw [updateRow_record keeps, found]; rfl, .inr (newer row found)⟩
  · exact ⟨row, by rw [updateRow_record_of_ne same keeps, found], .inl rfl⟩

variable [Host]

theorem Reconciled.outdates (reconciled : Reconciled now s other s')
    (id : String) : Outdates s s' id := by
  have newer {stored : StoredAnnotation} (held : findAnnotationRow s other = some stored) :
      ∀ row, findAnnotationRow s other = some row → row.rev < stored.rev + 1 := by
    intro row known
    rw [held] at known
    cases known
    exact Int.lt_succ _
  cases reconciled with
  | settled => exact .refl s id
  | created =>
    intro row known
    refine ⟨row, ?_, .inl rfl⟩
    rw [insertRow_record, known]
    rfl
  | refreshed _ held | retired held => exact outdates_of_update (fun _ => rfl) (newer held)

theorem reconcileNativeIds_outdates (now : Int) (s : Store) (ids : List String) (id : String) :
    Outdates s (reconcileNativeIds now s ids) id := by
  unfold reconcileNativeIds
  split
  · exact foldl_rel (R := fun s s' => Outdates s s' id) (fun s => .refl s id) .trans
      fun s other _ => (reconcileNativeId_reconciled now s other).outdates id
  · exact .refl s id

/-- Inputs for other records leave a record alone. -/
theorem run_other {index : Nat}
    (others : ∀ input ∈ inputs, input.id ≠ id)
    (success : Batch.run (pushItem now deviceId) index s inputs = .ok (s', results)) :
    findAnnotationRow s' id = findAnnotationRow s id :=
  Batch.run_rel (R := fun s s' => findAnnotationRow s' id = findAnnotationRow s id) (fun _ => rfl)
    (fun first second => second.trans first)
    (fun _ _ input _ _ member item => (pushItem_pushed item).other (others input member).symm)
    success

/-- The row an update of a row leaves, wherever it stands in its batch. -/
theorem applied_update {before after : List AnnotationInput}
    (stored : findAnnotationRow s input.id = some row)
    (current : input.baseRev = row.rev) (alone : ∀ other ∈ before ++ after, other.id ≠ input.id)
    (success : appendAnnotations now deviceId s (before ++ input :: after) = .ok (s', results))
    (answered : results[before.length]? = some result) (applied : result.status = .applied) :
    ∃ middle written rewritten seq,
      invalidReason input row = none ∧ Rewritten now middle input row written rewritten ∧
        findAnnotationRow s' input.id = some (updatedRow now deviceId rewritten row seq row) := by
  obtain ⟨middle, next, pushed, early, late, first, item, rest, projected⟩ :=
    appendAnnotations_item success answered
  have beforeOther := run_other (fun other member => alone other (List.mem_append_left _ member))
    first
  have afterOther := run_other (fun other member => alone other (List.mem_append_right _ member))
    rest
  obtain ⟨later, found, moved⟩ := reconcileNativeIds_outdates now s
    ((before ++ input :: after).map AnnotationInput.id) input.id row stored
  rw [found] at beforeOther
  cases pushItem_pushed item with
  | refused identity status => exact absurd applied status
  | @updated known written rewritten held live based valid rewrite =>
    rw [beforeOther] at held
    cases held
    have same : later = row := by
      rcases moved with same | newer
      · exact same
      · omega
    subst same
    refine ⟨middle, written, rewritten, written.annotationSeq + 1, valid, rewrite, ?_⟩
    rw [(projectIfApplied_nativeOnly projected).record, afterOther, rewrite.id,
      updateRow_record, rewrite.nativeOnly.record, beforeOther]
    · rfl
    · exact fun _ => rfl
  | created absent =>
    rw [beforeOther] at absent
    cases absent

/-- What is stored of a legacy client's highlight: the color and the drawer an
extended client saw, and a payload without a drawer. A mirror's locator is its
native row's, which names none. -/
theorem Rewritten.echo
    (rewrite : Rewritten now s input row s' rewritten) (live : row.deleted = false)
    (highlight : row.kind = "highlight") (styled : Styled row) (echo : LegacyEcho row input)
    (valid : invalidReason input row = none) :
    annotationColorForUpdate rewritten row = row.color ∧
      annotationDrawerForUpdate rewritten row = annotationDrawer row ∧
      (annotationPayload rewritten).get "drawer" = none ∧
      locatorDrawer rewritten.locator =
        if isStumpNativeAnnotationId row.id then none else locatorDrawer row.locator := by
  have kind := echo.highlight live highlight
  have color := annotationColorForUpdate_echo live highlight styled echo
  have same : input.id = row.id := by simpa [shownToLegacy, annotationRecordForClient] using echo.id
  have drawer : annotationDrawerForUpdate input row = annotationDrawer row := by
    simp [annotationDrawerForUpdate, kind, echo.drawer]
  cases rewrite with
  | client client =>
    have place : input.locator = row.locator := by
      simpa [shownToLegacy, annotationRecordForClient, annotationRecord, live] using echo.locator
    rw [same] at client
    refine ⟨color, drawer, ?_, by simp [client, place]⟩
    rw [annotationPayload_drawer, echo.drawer]
    rfl
  | @mark nativeId locator parsed placed exists_ =>
    have native := isStumpNativeAnnotationId_of_parse parsed
    rw [same] at native
    refine ⟨?_, ?_, ?_, by simp [native, markInput, locatorDrawer, toValue_drawer]⟩
    · simp [annotationColorForUpdate, markInput, kind]
      simpa [annotationColorForUpdate, kind] using color
    · simp [annotationDrawerForUpdate, markInput, kind, echo.drawer]
    · rw [annotationPayload_drawer]
      simp [markInput, echo.drawer]
  | @bookmark nativeId locator parsed placed exists_ =>
    have native := isStumpNativeAnnotationId_of_parse parsed
    simp only [invalidReason, native, if_true, nativeUpdateInvalidReason, parsed, kind] at valid
    split_ifs at valid
    all_goals simp_all

/-- A highlight a legacy client reads and pushes back keeps the color and the
drawer an extended client sees, unless a cleared drawer resurfaces. -/
theorem legacy_push_keeps_style (s : Store) (reachable : styleSystem.Reachable s)
    (row : StoredAnnotation) (stored : findAnnotationRow s row.id = some row)
    (live : row.deleted = false) (highlight : row.kind = "highlight")
    (input : AnnotationInput) (echo : LegacyEcho row input) (now : Int) (deviceId : String)
    (before after : List AnnotationInput)
    (alone : ∀ other ∈ before ++ after, other.id ≠ input.id)
    (s' : Store) (results : List AnnotationResult) (result : AnnotationResult)
    (success : appendAnnotations now deviceId s (before ++ input :: after) = .ok (s', results))
    (answered : results[before.length]? = some result) (applied : result.status = .applied) :
    ∃ later, findAnnotationRow s' row.id = some later ∧
      ((annotationRecord later).color = (annotationRecord row).color ∧
          (annotationRecord later).drawer = (annotationRecord row).drawer ↔ ¬ Resurfaces row) := by
  have styled := styled_of_reachable reachable row (lookup_mem stored)
  have same : input.id = row.id := by simpa [shownToLegacy, annotationRecordForClient] using echo.id
  have current : input.baseRev = row.rev := by
    simpa [shownToLegacy, annotationRecordForClient, annotationRecord, live] using echo.baseRev
  obtain ⟨middle, written, rewritten, seq, valid, rewrite, found⟩ :=
    applied_update (by rw [same]; exact stored) current alone success answered applied
  obtain ⟨color, drawer, silent, place⟩ := rewrite.echo live highlight styled echo valid
  rw [same] at found
  refine ⟨_, found, ?_⟩
  have seen : annotationDrawer (updatedRow now deviceId rewritten row seq row) =
      (annotationDrawer row).or (locatorDrawer rewritten.locator) := by
    have known : ∀ chosen ∈ annotationDrawerForUpdate rewritten row,
      chosen ∈ annotationDrawers := by
      rw [drawer]
      exact fun _ => annotationDrawer_known
    rw [annotationDrawer_of_row known silent]
    simp only [updatedRow, drawer]
  simp only [annotationRecord, live, updatedRow, color] at seen ⊢
  simp only [Bool.false_eq_true, if_false, true_and, seen, place]
  unfold Resurfaces
  cases shown : annotationDrawer row with
  | some drawer => simp
  | none =>
    cases native : isStumpNativeAnnotationId row.id with
    | true => simp
    | false => simp

end Push

end Echo

section Sample

local instance stylesHost : Host := Host.sample

/-- A highlight with a style of its own, on a locator that names a drawer. -/
def sampleHighlight (color drawer : Option String) : AnnotationInput :=
  { id := "mark-1", baseRev := 0, workId := "work", editionSha := none, kind := "highlight"
    locator := some (.obj [("drawer", .str "underline")]), progression := none, excerpt := "line"
    color := color, drawer := drawer, body := ""
    clientTs := "2026-01-01T00:00:00.000000000Z" }

/-- The account with that highlight. -/
def sampleMarked (color drawer : Option String) : Store :=
  (commit sampleAccount
    (appendAnnotations (sampleHour 1) "a" sampleAccount [sampleHighlight color drawer])).1

/-- The row it is stored as. -/
def sampleMark (color drawer : Option String) : StoredAnnotation :=
  createdRow (sampleHour 1) "a" (sampleHighlight color drawer) 1

/-- A legacy client adds a note to the highlight. -/
def sampleEcho (color : Option String) : AnnotationInput :=
  { sampleHighlight color none with baseRev := 1, body := "note" }

/-- The account after that push. -/
def sampleEchoed (color drawer : Option String) : Store :=
  (commit (sampleMarked color drawer)
    (appendAnnotations (sampleHour 2) "b" (sampleMarked color drawer) [sampleEcho none])).1

theorem sampleMarked_reachable {color drawer : Option String}
    (valid : validateAnnotation (sampleHour 1) (sampleHighlight color drawer) = .ok ()) :
    styleSystem.Reachable (sampleMarked color drawer) := by
  have start : styleSystem.Reachable sampleAccount := .initial rfl
  exact start.step (.push (sampleHour 1) "a" [sampleHighlight color drawer] (by simpa using valid))

theorem served_styles_known_sample :
    (annotationRecord (sampleMark (some "red") none)).color = "red" ∧ "red" ∈ annotationColors :=
  ⟨rfl, (served_styles_known (@sampleMarked_reachable (some "red") none (by decide +kernel))
    (by decide +kernel : sampleMark (some "red") none ∈ _)).1 _ rfl⟩

/-- The drawer was cleared, and a legacy client brings the locator's back. -/
theorem cleared_drawer_resurfaces :
    ∃ s row input now deviceId s' result later, styleSystem.Reachable s ∧
      findAnnotationRow s row.id = some row ∧ row.deleted = false ∧ row.kind = "highlight" ∧
      LegacyEcho row input ∧ validateAnnotation now input = .ok () ∧
      appendAnnotations now deviceId s [input] = .ok (s', [result]) ∧ result.status = .applied ∧
      findAnnotationRow s' row.id = some later ∧
      (annotationRecord later).drawer ≠ (annotationRecord row).drawer := by
  refine ⟨sampleMarked none (some ""), sampleMark none (some ""), sampleEcho none,
    sampleHour 2, "b",
    sampleEchoed none (some ""), appliedResult "mark-1" 2 2,
    updatedRow (sampleHour 2) "b" (sampleEcho none) (sampleMark none (some "")) 2
      (sampleMark none (some "")), sampleMarked_reachable (by decide +kernel), ?_⟩
  exact ⟨by decide +kernel, rfl, rfl, ⟨rfl, rfl, rfl, rfl, rfl, rfl⟩, by decide +kernel,
    by decide +kernel, rfl, by decide +kernel, by decide +kernel⟩

theorem legacy_push_keeps_style_sample :
    ∃ later, findAnnotationRow (sampleEchoed (some "red") (some "invert")) "mark-1" = some later ∧
      (annotationRecord later).color = some "red" ∧
      (annotationRecord later).drawer = some "invert" := by
  obtain ⟨later, found, kept⟩ := legacy_push_keeps_style (sampleMarked (some "red") (some "invert"))
    (sampleMarked_reachable (by decide +kernel)) (sampleMark (some "red") (some "invert"))
    (by decide +kernel) rfl rfl (sampleEcho none) ⟨rfl, rfl, rfl, rfl, rfl, rfl⟩ (sampleHour 2) "b"
    [] [] (by simp) (sampleEchoed (some "red") (some "invert")) [appliedResult "mark-1" 2 2]
    (appliedResult "mark-1" 2 2) (by decide +kernel) rfl rfl
  obtain ⟨color, drawer⟩ := kept.mpr fun resurfaces => by
    have shown : annotationDrawer (sampleMark (some "red") (some "invert")) = some "invert" := by
      decide +kernel
    rw [resurfaces.2.1] at shown
    cases shown
  exact ⟨later, found, color.trans (by decide +kernel), drawer.trans (by decide +kernel)⟩

end Sample
end Coppice.LiseurSync
