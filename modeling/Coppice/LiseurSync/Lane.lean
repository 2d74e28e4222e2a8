import Coppice.LiseurSync.Mirrors
import Coppice.LiseurSync.Push

/-!
# What the annotation writers touch

Two facts about every writer of the annotation lane, stated once. A frame says
which tables it leaves alone: reconciliation of mirrors writes the lane only,
projection writes the native tables and its cursor only. `Moves` says how it
writes the lane: every row it changes ends above the old high water, so the lane
is a change feed in the sense of `Std.Feed`.
-/

namespace Coppice.LiseurSync

open Coppice.Std Coppice.Std.Feed Models Models.Store

/-- Only the annotation lane and its clock differ. -/
def LaneOnly (s s' : Store) : Prop :=
  s' = { s with annotations := s'.annotations, annotationSeq := s'.annotationSeq }

/-- Only the native tables and the projection cursor differ. -/
def NativeOnly (s s' : Store) : Prop :=
  s' = { s with
    mediaAnnotations := s'.mediaAnnotations, bookmarks := s'.bookmarks
    projectedAnnotationSeq := s'.projectedAnnotationSeq }

/-- Only the annotation lane, the native tables and their two cursors differ. -/
def AnnotationsOnly (s s' : Store) : Prop :=
  s' = { s with
    annotations := s'.annotations, annotationSeq := s'.annotationSeq
    mediaAnnotations := s'.mediaAnnotations, bookmarks := s'.bookmarks
    projectedAnnotationSeq := s'.projectedAnnotationSeq }

variable {s s' s'' : Store} {row : StoredAnnotation}

section Frames

theorem LaneOnly.refl (s : Store) : LaneOnly s s := rfl

theorem LaneOnly.trans (first : LaneOnly s s') (second : LaneOnly s' s'') : LaneOnly s s'' := by
  unfold LaneOnly at *
  rw [second, first]

theorem NativeOnly.refl (s : Store) : NativeOnly s s := rfl

theorem NativeOnly.trans (first : NativeOnly s s') (second : NativeOnly s' s'') :
    NativeOnly s s'' := by
  unfold NativeOnly at *
  rw [second, first]

theorem AnnotationsOnly.refl (s : Store) : AnnotationsOnly s s := rfl

theorem AnnotationsOnly.trans (first : AnnotationsOnly s s') (second : AnnotationsOnly s' s'') :
    AnnotationsOnly s s'' := by
  unfold AnnotationsOnly at *
  rw [second, first]

theorem NativeOnly.rows (frame : NativeOnly s s') : s'.annotations = s.annotations := by
  rw [frame]

theorem AnnotationsOnly.works (frame : AnnotationsOnly s s') : s'.works = s.works := by
  rw [frame]

theorem AnnotationsOnly.links (frame : AnnotationsOnly s s') : s'.links = s.links := by
  rw [frame]

theorem LaneOnly.annotationsOnly (frame : LaneOnly s s') : AnnotationsOnly s s' := by
  unfold LaneOnly AnnotationsOnly at *
  rw [frame]

theorem NativeOnly.annotationsOnly (frame : NativeOnly s s') : AnnotationsOnly s s' := by
  unfold NativeOnly AnnotationsOnly at *
  rw [frame]

end Frames

/-- How a writer may change the lane: rows it touches end above the high water. -/
def Moves (s s' : Store) : Prop :=
  Advance StoredAnnotation.id StoredAnnotation.seq s.annotations s.annotationSeq s'.annotations
    s'.annotationSeq

theorem Moves.refl (s : Store) : Moves s s := Advance.refl _ _

/-- A write of the annotation lane and of nothing else. -/
structure LaneWrite (s s' : Store) : Prop where
  frame : LaneOnly s s'
  moves : Moves s s'

/-- A write of the annotation lane and of the native tables. -/
structure AnnotationWrite (s s' : Store) : Prop where
  frame : AnnotationsOnly s s'
  moves : Moves s s'

section Writes

theorem LaneWrite.refl (s : Store) : LaneWrite s s := ⟨.refl s, Advance.refl _ _⟩

theorem LaneWrite.trans (first : LaneWrite s s') (second : LaneWrite s' s'') : LaneWrite s s'' :=
  ⟨first.frame.trans second.frame, Advance.trans first.moves second.moves⟩

theorem AnnotationWrite.refl (s : Store) : AnnotationWrite s s := ⟨.refl s, Advance.refl _ _⟩

theorem AnnotationWrite.trans (first : AnnotationWrite s s') (second : AnnotationWrite s' s'') :
    AnnotationWrite s s'' :=
  ⟨first.frame.trans second.frame, Advance.trans first.moves second.moves⟩

theorem LaneWrite.annotationWrite (write : LaneWrite s s') : AnnotationWrite s s' :=
  ⟨write.frame.annotationsOnly, write.moves⟩

theorem NativeOnly.annotationWrite (frame : NativeOnly s s') : AnnotationWrite s s' := by
  refine ⟨frame.annotationsOnly, ?_⟩
  rw [frame]
  exact Advance.refl _ _

/-- Rewriting a row under its identity, at the next position. -/
theorem laneWrite_update (id : String) {f : StoredAnnotation → StoredAnnotation}
    (keeps : ∀ row, (f row).id = row.id) (stamped : ∀ row, (f row).seq = s.annotationSeq + 1) :
    LaneWrite s (updateRow (nextAnnotationSeq s).1 id f) :=
  ⟨rfl, Advance.update keeps stamped⟩

/-- Adding a row under a new identity, at the next position. -/
theorem laneWrite_insert (absent : findAnnotationRow s row.id = none)
    (stamped : row.seq = s.annotationSeq + 1) :
    LaneWrite s (insertRow (nextAnnotationSeq s).1 row) :=
  ⟨rfl, Advance.insert (lookup_eq_none.mp absent) stamped⟩

end Writes

/-- Re-sequencing moves each live record of a work to a position of its own. -/
theorem resequenceWorkAnnotations_laneWrite (s : Store) (workId : String) :
    LaneWrite s (resequenceWorkAnnotations s workId).1 := by
  refine ⟨rfl, Advance.map (Nat.le_add_right _ _) ?_ ?_ ?_⟩
  · intro row
    split <;> rfl
  · intro row member
    split
    · rename_i offset moved
      have inside := (List.findIdx?_eq_some_iff_getElem.mp moved).1
      right
      simp only [resequenceWorkAnnotations]
      omega
    · exact .inl rfl
  · intro wellFormed left leftMember right rightMember above same
    split at same
    · rename_i leftOffset leftMoved
      obtain ⟨inside, leftId, -⟩ := List.findIdx?_eq_some_iff_getElem.mp leftMoved
      split at same
      · rename_i rightOffset rightMoved
        obtain ⟨_, rightId, -⟩ := List.findIdx?_eq_some_iff_getElem.mp rightMoved
        obtain rfl : leftOffset = rightOffset := by
          simp only at same
          omega
        exact (of_decide_eq_true leftId).symm.trans (of_decide_eq_true rightId)
      · have below := wellFormed.bounded right rightMember
        simp only at same
        omega
    · rename_i leftStays
      have below := wellFormed.bounded left leftMember
      rw [leftStays] at above
      simp only at above
      omega

section Mirrors

variable [Host]

theorem MirrorEdit.laneWrite (edit : MirrorEdit s s') : LaneWrite s s' := by
  cases edit with
  | created exported absent => exact laneWrite_insert absent rfl
  | refreshed exported stored | retired now mirror =>
    exact laneWrite_update _ (fun _ => rfl) fun _ => rfl

theorem MirrorEdits.laneWrite (edits : MirrorEdits s s') : LaneWrite s s' := by
  induction edits with
  | refl => exact .refl s
  | tail _ edit ih => exact ih.trans edit.laneWrite

end Mirrors

section Pushes

variable {input : AnnotationInput} {result : AnnotationResult} {results : List AnnotationResult}
  {now : Int} {deviceId : String}

variable [Host] {id : String}

theorem projectAnnotation_nativeOnly
    (success : projectAnnotation s row = .ok s') : NativeOnly s s' := by
  unfold projectAnnotation at success
  split at success
  · cases success
    exact .refl s
  obtain ⟨projection, -, success⟩ := bind_eq_ok.mp success
  cases success
  cases projection with
  | none => exact rfl
  | some native =>
    have cleared (id : String) : NativeOnly s (deleteNativeAnnotationProjection s id) := rfl
    exact (cleared _).trans (by cases native <;> rfl)

/-- The rule for moving the cursor: it projects records above the old one, and is set. -/
theorem reconcileAnnotationProjections_rel {R : Store → Store → Prop} (refl : ∀ s, R s s)
    (trans : ∀ {a b c}, R a b → R b c → R a c)
    (cursor : ∀ s seq, R s { s with projectedAnnotationSeq := seq })
    (each : ∀ a b, ∀ row ∈ s.annotations, s.projectedAnnotationSeq < row.seq →
      projectAnnotation a row = .ok b → R a b)
    (success : reconcileAnnotationProjections s = .ok s') : R s s' := by
  unfold reconcileAnnotationProjections at success
  split at success
  · cases success
    exact refl s
  obtain ⟨projected, loop, success⟩ := bind_eq_ok.mp success
  cases success
  refine trans (foldlM_rel refl trans (fun a b row member step => ?_) loop) (cursor _ _)
  simp only [feedRange, mem_orderBy, List.mem_filter, Bool.and_eq_true, decide_eq_true_eq] at member
  exact each a b row member.1 member.2.1 step

theorem reconcileAnnotationProjections_nativeOnly :
    reconcileAnnotationProjections s = .ok s' → NativeOnly s s' :=
  reconcileAnnotationProjections_rel .refl .trans (fun _ _ => rfl)
    fun _ _ _ _ _ => projectAnnotation_nativeOnly

theorem Rewritten.nativeOnly {rewritten : AnnotationInput} {stored : StoredAnnotation}
    (rewrite : Rewritten now s input stored s' rewritten) : NativeOnly s s' := by
  cases rewrite <;> rfl

omit [Host] in
theorem deleteSource_tables (success : deleteSource s id = .ok s') :
    s' = { s with mediaAnnotations := s'.mediaAnnotations, bookmarks := s'.bookmarks } := by
  unfold deleteSource deleteNativeAnnotationSource at success
  split_ifs at success
  · split at success
    · cases success
    all_goals
      split_ifs at success
      cases success
      rfl
  · cases success
    rfl

omit [Host] in
theorem deleteSource_nativeOnly (success : deleteSource s id = .ok s') :
    NativeOnly s s' := by
  rw [deleteSource_tables success]
  rfl

/-- What an update and a creation establish about a row holds of every row. -/
theorem Pushed.forall_rows
    {P : StoredAnnotation → Prop} (pushed : Pushed now deviceId s input s' result)
    (rows : ∀ row ∈ s.annotations, P row)
    (update : ∀ stored written rewritten seq row, stored ∈ s.annotations →
      Rewritten now s input stored written rewritten → row.id = input.id → P row →
      P (updatedRow now deviceId rewritten stored seq row))
    (create : isStumpNativeAnnotationId input.id = false →
      ∀ seq, P (createdRow now deviceId input seq)) : ∀ row ∈ s'.annotations, P row := by
  cases pushed with
  | refused => exact rows
  | updated found live current valid rewrite =>
    have written := rewrite.nativeOnly
    refine forall_updateRow (by rw [written]; exact rows) fun row same => ?_
    rw [rewrite.id] at same
    exact update _ _ _ _ row (lookup_mem found) rewrite same
  | created absent zero client => exact forall_insertRow rows (create client _)

theorem Pushed.annotationWrite
    (pushed : Pushed now deviceId s input s' result) : AnnotationWrite s s' := by
  cases pushed with
  | refused => exact .refl s
  | updated found live current valid rewrite =>
    refine rewrite.nativeOnly.annotationWrite.trans (LaneWrite.annotationWrite ?_)
    exact laneWrite_update _ (fun _ => rfl) fun _ => rfl
  | created absent => exact (laneWrite_insert absent rfl).annotationWrite

theorem projectIfApplied_nativeOnly
    (success : projectIfApplied s results = .ok s') : NativeOnly s s' := by
  unfold projectIfApplied at success
  split at success
  · exact reconcileAnnotationProjections_nativeOnly success
  · cases success
    exact .refl s

theorem appendAnnotations_annotationWrite {inputs : List AnnotationInput}
    (success : appendAnnotations now deviceId s inputs = .ok (s', results)) :
    AnnotationWrite s s' := by
  obtain ⟨pushed, run, projected⟩ := appendAnnotations_eq_ok.mp success
  have items : AnnotationWrite (reconcileNativeIds now s (inputs.map AnnotationInput.id)) pushed :=
    Batch.run_rel .refl .trans
      (fun _ _ _ _ _ _ success => (pushItem_pushed success).annotationWrite) run
  exact (reconcileNativeIds_edits now _).laneWrite.annotationWrite.trans
    (items.trans (projectIfApplied_nativeOnly projected).annotationWrite)

theorem deleteAnnotation_annotationWrite {rev : Int} {result : DeleteAnnotationResult}
    (success : deleteAnnotation now s id rev = .ok (s', result)) : AnnotationWrite s s' := by
  have reconciled : AnnotationWrite s (reconcileNativeIds now s [id]) :=
    (reconcileNativeIds_edits now _).laneWrite.annotationWrite
  cases deleteAnnotation_deleted success with
  | gone => exact reconciled
  | stale => exact .refl s
  | applied found live current source projected =>
    refine reconciled.trans ((deleteSource_nativeOnly source).annotationWrite.trans
      (AnnotationWrite.trans (LaneWrite.annotationWrite ?_)
        (reconcileAnnotationProjections_nativeOnly projected).annotationWrite))
    exact laneWrite_update id (fun _ => rfl) fun _ => rfl

theorem sweepForPoll_annotationWrite {after resume : Option String}
    (success : sweepForPoll now s after = .ok (s', resume)) : AnnotationWrite s s' := by
  obtain ⟨projected, projection, success⟩ := bind_eq_ok.mp success
  cases success
  exact (reconcileNativeWorks_edits now _).laneWrite.annotationWrite.trans
    (reconcileAnnotationProjections_nativeOnly projection).annotationWrite

end Pushes

end Coppice.LiseurSync
