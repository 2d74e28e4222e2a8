import Coppice.Ingest.Item
import Coppice.Std.Table
import Coppice.Std.Threads

/-!
# The ingest coordinator

Analysis jobs run beside each other and beside the decisions of users. Every store call is one
step; what a call has loaded it keeps while others act. A run is started for every spawn.
-/

namespace Coppice.Ingest

open Coppice.Std

section Model

inductive JobStatus where
  | running | paused | completed | cancelled | failed | queued
deriving DecidableEq, Repr

def JobStatus.isPending : JobStatus → Bool
  | running | paused | queued => true
  | completed | cancelled | failed => false

/-- A row of `ingest_analysis_jobs` for a drop item. -/
structure AnalysisJob where
  id : String
  dropItemId : String
  status : JobStatus := .queued
  attempts : Nat := 0
  error : Option String := none
deriving DecidableEq, Repr

/-- The tables, and the runs that are spawned and have not begun. -/
structure Desk where
  items : List DropItem := []
  jobs : List AnalysisJob := []
  spawned : List String := []
deriving DecidableEq, Repr

namespace Desk

variable (desk : Desk)

def item (id : String) : Option DropItem := lookup DropItem.id desk.items id

def job (id : String) : Option AnalysisJob := lookup AnalysisJob.id desk.jobs id

/-- Jobs are listed in the order of their creation. -/
def latestJobForItem (itemId : String) : Option AnalysisJob :=
  (desk.jobs.filter (·.dropItemId = itemId)).getLast?

def updateItem (id : String) (change : DropItem → DropItem) : Desk :=
  { desk with items := updateAt DropItem.id id change desk.items }

def updateJob (id : String) (change : AnalysisJob → AnalysisJob) : Desk :=
  { desk with jobs := updateAt AnalysisJob.id id change desk.jobs }

def spawn (jobId : String) : Desk := { desk with spawned := desk.spawned ++ [jobId] }

/-- The pending job of the item unless one is forced, else a new job; the item is staged again. -/
def createAnalysisJob (item : DropItem) (force : Bool) (freshId : String) : Desk × String :=
  match (desk.latestJobForItem item.id).filter fun job => !force && job.status.isPending with
  | some existing => (desk, existing.id)
  | none =>
    let job : AnalysisJob := { id := freshId, dropItemId := item.id }
    let created : Desk := { desk with jobs := desk.jobs ++ [job] }
    (created.updateItem item.id fun row => { row with
      analysisJobId := some freshId
      status := .staged
      revision := nextRevision item.revision }, freshId)

def updateJobStatus (jobId : String) (status : JobStatus) (error : Option String) : Desk :=
  desk.updateJob jobId fun job => { job with status := status, error := error.or job.error }

def startJob (jobId : String) : Desk :=
  desk.updateJob jobId fun job =>
    { job with status := .running, attempts := min (job.attempts + 1) (2 ^ 31 - 1), error := none }

def finishJob (jobId : String) : Desk :=
  desk.updateJob jobId fun job => { job with status := .completed }

def failJob (jobId : String) (error : String) : Desk :=
  desk.updateJob jobId fun job => { job with status := .failed, error := some error }

def failItem (itemId : String) (reason : String) : Desk :=
  desk.updateItem itemId fun item =>
    { item with status := .failed, error := some reason, revision := nextRevision item.revision }

def setItemAnalysisResult (itemId : String) (score : Nat) (hasCandidates : Bool) : Desk :=
  desk.updateItem itemId fun item => { item with
    status := if score < 100 ∨ hasCandidates then .awaitingReview else .ready
    error := none
    revision := nextRevision item.revision }

/-- The digest and size of a staged file that a hook or a repair tool rewrote. -/
def rewriteItem (item : DropItem) (sourceSha256 : String) (byteSize : Nat) (preprocessed : Bool) :
    Desk :=
  desk.updateItem item.id fun row => { row with
    sourceSha256 := sourceSha256
    byteSize := byteSize
    preprocessed := preprocessed
    revision := nextRevision item.revision }

def saveReport (itemId : String) : Desk :=
  desk.updateItem itemId fun item => { item with revision := nextRevision item.revision }

/-- The update at the end of an approval, from the item as it was loaded. -/
def commitItem (item : DropItem) (mediaId : String) : Desk :=
  desk.updateItem item.id fun row => { row with
    status := .committed
    mediaId := some mediaId
    error := none
    revision := nextRevision item.revision }

/-- The update at the end of a rejection, from the item as it was loaded. -/
def rejectItem (item : DropItem) (reason : Option String) : Desk :=
  desk.updateItem item.id fun row => { row with
    status := .rejected
    error := reason
    revision := nextRevision item.revision }

end Desk

/-- How the work between two store calls ends: the ids it draws, what it finds, or its failure. -/
inductive WorkResult where
  | fresh (id : String)
  | rewritten (sourceSha256 : String) (byteSize : Nat)
  | analysed (score : Nat) (hasCandidates : Bool)
  | preprocessFailed (reason : String)
  | failed (reason : String)
  | fine
deriving DecidableEq, Repr

/-- A call in progress, at its next store call. -/
inductive Task where
  | enqueue (items : List String) (force : Bool)
  | enqueueLatest (item : DropItem) (rest : List String) (force : Bool)
  | enqueueCreate (item : DropItem) (rest : List String) (force : Bool)
  | retry (jobId : String)
  | pause (jobId : String)
  | pauseWrite (jobId : String)
  | resume (jobId : String)
  | resumeWrite (jobId : String)
  | cancel (jobId : String)
  | cancelWrite (jobId : String)
  | run (jobId : String)
  | runStart (job : AnalysisJob)
  | runItem (job : AnalysisJob)
  | runPreprocess (jobId : String) (item : DropItem)
  | runReport (jobId itemId : String)
  | runResult (jobId itemId : String)
  | runDone (jobId : String)
  | runFailed (jobId : String) (error : String)
  | qualityFix (itemId : String)
  | fixRewrite (item : DropItem)
  | fixReport (itemId : String)
  | fixResult (itemId : String)
  | approve (itemId : String) (expectedRevision : Nat)
  | approveCommit (item : DropItem)
  | reject (itemId : String) (reason : Option String)
  | rejectWrite (item : DropItem) (reason : Option String)
  | done
deriving DecidableEq, Repr

/-- The next store call of a call, after work with a result. -/
@[simp] def Task.advance (result : WorkResult) (task : Task) (desk : Desk) : Option (Desk × Task) :=
  match task with
  | .enqueue [] _ => some (desk, .done)
  | .enqueue (itemId :: rest) force =>
    match desk.item itemId with
    | none => some (desk, .done)
    | some item => some (desk, .enqueueLatest item rest force)
  | .enqueueLatest item rest force =>
    match (desk.latestJobForItem item.id).filter fun job => !force && job.status.isPending with
    | some _ => some (desk, .enqueue rest force)
    | none => some (desk, .enqueueCreate item rest force)
  | .enqueueCreate item rest force =>
    match result with
    | .fresh id =>
      if (desk.job id).isSome then none
      else
        let created := desk.createAnalysisJob item force id
        some (created.1.spawn created.2, .enqueue rest force)
    | _ => none
  | .retry jobId =>
    match desk.job jobId with
    | none => some (desk, .done)
    | some job => some (desk, .enqueue [job.dropItemId] true)
  | .pause jobId =>
    match desk.job jobId with
    | none => some (desk, .done)
    | some job =>
      if job.status = .queued ∨ job.status = .running then some (desk, .pauseWrite jobId)
      else some (desk, .done)
  | .pauseWrite jobId => some (desk.updateJobStatus jobId .paused none, .done)
  | .resume jobId =>
    match desk.job jobId with
    | none => some (desk, .done)
    | some job =>
      if job.status = .paused then some (desk, .resumeWrite jobId) else some (desk, .done)
  | .resumeWrite jobId => some ((desk.updateJobStatus jobId .queued none).spawn jobId, .done)
  | .cancel jobId =>
    match desk.job jobId with
    | none => some (desk, .done)
    | some job =>
      if job.status.isPending then some (desk, .cancelWrite jobId) else some (desk, .done)
  | .cancelWrite jobId => some (desk.updateJobStatus jobId .cancelled (some "cancelled"), .done)
  | .run jobId =>
    -- every run belongs to one spawn
    if jobId ∈ desk.spawned then
      let begun := { desk with spawned := desk.spawned.erase jobId }
      match desk.job jobId with
      | none => some (begun, .done)
      | some job =>
        if job.status = .paused ∨ job.status = .cancelled then some (begun, .done)
        else some (begun, .runStart job)
    else none
  | .runStart job => some (desk.startJob job.id, .runItem job)
  | .runItem job =>
    match desk.item job.dropItemId with
    | none => some (desk, .done)
    | some item => some (desk, .runPreprocess job.id item)
  | .runPreprocess jobId item =>
    match result with
    | .rewritten sourceSha256 byteSize =>
      if item.preprocessed then none
      else some (desk.rewriteItem item sourceSha256 byteSize true, .runReport jobId item.id)
    | .preprocessFailed reason =>
      if item.preprocessed then none
      else some (desk.failItem item.id reason, .runFailed jobId reason)
    | .failed reason => some (desk, .runFailed jobId reason)
    | _ => some (desk, .runReport jobId item.id)
  | .runReport jobId itemId =>
    match result with
    | .failed reason => some (desk, .runFailed jobId reason)
    | _ => some (desk.saveReport itemId, .runResult jobId itemId)
  | .runResult jobId itemId =>
    match result with
    | .analysed score hasCandidates =>
      some (desk.setItemAnalysisResult itemId score hasCandidates, .runDone jobId)
    | .failed reason => some (desk, .runFailed jobId reason)
    | _ => none
  | .runDone jobId =>
    match result with
    | .failed reason => some (desk, .runFailed jobId reason)
    | _ => some (desk.finishJob jobId, .done)
  | .runFailed jobId error => some (desk.failJob jobId error, .done)
  | .qualityFix itemId =>
    match desk.item itemId with
    | none => some (desk, .done)
    | some item => some (desk, .fixRewrite item)
  | .fixRewrite item =>
    match result with
    | .rewritten sourceSha256 byteSize =>
      some (desk.rewriteItem item sourceSha256 byteSize item.preprocessed, .fixReport item.id)
    | .failed _ => some (desk, .done)
    | _ => some (desk, .fixReport item.id)
  | .fixReport itemId =>
    match result with
    | .failed _ => some (desk, .done)
    | _ => some (desk.saveReport itemId, .fixResult itemId)
  | .fixResult itemId =>
    match result with
    | .analysed score hasCandidates =>
      some (desk.setItemAnalysisResult itemId score hasCandidates, .done)
    | _ => some (desk, .done)
  | .approve itemId expectedRevision =>
    match desk.item itemId with
    | none => some (desk, .done)
    | some item =>
      if item.revision ≠ expectedRevision ∨ item.status = .committed ∨
          item.status = .rejected ∨ item.status = .failed then some (desk, .done)
      else some (desk, .approveCommit item)
  | .approveCommit item =>
    match result with
    | .fresh mediaId => some (desk.commitItem item mediaId, .done)
    | _ => some (desk, .done)
  | .reject itemId reason =>
    match desk.item itemId with
    | none => some (desk, .done)
    | some item => some (desk, .rejectWrite item reason)
  | .rejectWrite item reason =>
    match result with
    | .failed _ => some (desk, .done)
    | _ => some (desk.rejectItem item reason, .done)
  | .done => none

inductive Call where
  | enqueue (items : List String) (force : Bool)
  | retry (jobId : String)
  | pause (jobId : String)
  | resume (jobId : String)
  | cancel (jobId : String)
  | run (jobId : String)
  | runQualityFix (itemId : String)
  | approve (itemId : String) (expectedRevision : Nat)
  | reject (itemId : String) (reason : Option String)
deriving DecidableEq, Repr

def Call.enter : Call → Task
  | enqueue items force => .enqueue items force
  | retry jobId => .retry jobId
  | pause jobId => .pause jobId
  | resume jobId => .resume jobId
  | cancel jobId => .cancel jobId
  | run jobId => .run jobId
  | runQualityFix itemId => .qualityFix itemId
  | approve itemId expectedRevision => .approve itemId expectedRevision
  | reject itemId reason => .reject itemId reason

/-- Calls are made at any time and advance by their store calls. -/
def coordinator : Machine (Pool Desk Task) (PoolTurn Call WorkResult) :=
  Pool.machine Call.enter Task.advance

end Model

section Statement

namespace Desk

variable (desk : Desk)

def itemStatus (id : String) : Option DropItemStatus := (desk.item id).map (·.status)

def jobStatus (id : String) : Option JobStatus := (desk.job id).map (·.status)

def Resolved (itemId : String) : Prop := ∃ status ∈ desk.itemStatus itemId, status.isResolved = true

instance (itemId : String) : Decidable (desk.Resolved itemId) :=
  inferInstanceAs (Decidable (∃ status ∈ desk.itemStatus itemId, _))

/-- What is cancelled, committed or rejected before is so after. -/
structure Final (earlier later : Desk) : Prop where
  jobs : ∀ id, earlier.jobStatus id = some .cancelled → later.jobStatus id = some .cancelled
  items : ∀ id, earlier.Resolved id → later.itemStatus id = earlier.itemStatus id

end Desk

namespace Task

/-- The item an analysis or a repair has loaded and may still write. -/
def analyses : Task → Option String
  | enqueueLatest item _ _ | enqueueCreate item _ _ | runPreprocess _ item | fixRewrite item =>
    some item.id
  | runReport _ itemId | runResult _ itemId | fixReport itemId | fixResult itemId => some itemId
  | _ => none

/-- The item an analysis or a repair loads next. -/
def loads : Task → Option String
  | enqueue (itemId :: _) _ => some itemId
  | runItem job => some job.dropItemId
  | qualityFix itemId => some itemId
  | _ => none

/-- The item a decision is written to next, with its status. -/
def decides : Task → Option (String × DropItemStatus)
  | approveCommit item => some (item.id, .committed)
  | rejectWrite item _ => some (item.id, .rejected)
  | _ => none

/-- The job a run, a pause or a resumption has loaded and may still write. -/
def holds : Task → Option String
  | pauseWrite jobId | resumeWrite jobId | runPreprocess jobId _ | runReport jobId _
  | runResult jobId _ | runDone jobId | runFailed jobId _ => some jobId
  | runStart job | runItem job => some job.id
  | _ => none

/-- The job a cancellation is written to next. -/
def cancels : Task → Option String
  | cancelWrite jobId => some jobId
  | _ => none

end Task

/-- A step that disturbs no resolved work: items are loaded for analysis only while they are
unresolved, and a decision is written only where no call still has the item or the job in hand and
the item is not resolved otherwise. -/
@[mk_iff]
structure Task.Considerate (pool : Pool Desk Task) (task : Task) : Prop where
  loads : ∀ id ∈ task.loads, ¬ pool.shared.Resolved id
  decides : ∀ decision ∈ task.decides,
    (pool.shared.Resolved decision.1 → pool.shared.itemStatus decision.1 = some decision.2) ∧
      ∀ other ∈ pool.threads, other.analyses ≠ some decision.1
  cancels : ∀ id ∈ task.cancels, ∀ other ∈ pool.threads, other.holds ≠ some id

/-- A turn whose step, if it is one, is considerate. -/
def Considerate : PoolTurn Call WorkResult → Pool Desk Task → Prop
  | .start _, _ => True
  | .move index _, pool => ∀ task ∈ pool.threads[index]?, task.Considerate pool

variable {pool : Pool Desk Task} {task : Task}

instance : Decidable (task.Considerate pool) :=
  decidable_of_iff _ (Task.considerate_iff pool task).symm

instance : ∀ turn pool, Decidable (Considerate turn pool)
  | .start _, _ => inferInstanceAs (Decidable True)
  | .move index _, pool =>
    inferInstanceAs (Decidable (∀ task ∈ pool.threads[index]?, task.Considerate pool))

/-- Work starts with no call under way. -/
def Idle (pool : Pool Desk Task) : Prop := pool.threads = []

end Statement

variable {desk next : Desk} {task task' : Task} {pool : Pool Desk Task} {status : DropItemStatus}

section Effects

/-- One key's entry is set where there is one. -/
def setEntry {α : Type} (entries : String → Option α) (id : String) (value : α) :
    String → Option α :=
  fun other => if other = id then (entries id).map fun _ => value else entries other

variable {result : WorkResult} {change : DropItem → DropItem} {itemId jobId freshId : String}
  {force : Bool}

theorem itemStatus_updateItem (id : String)
    (keeps : ∀ item, (change item).id = item.id := by exact fun _ => rfl)
    (sets : ∀ item, (change item).status = status := by exact fun _ => rfl) :
    (desk.updateItem id change).itemStatus = setEntry desk.itemStatus id status := by
  funext other
  unfold setEntry Desk.itemStatus Desk.item Desk.updateItem
  rw [map_lookup_updateAt (fun item key => (keeps item).trans key) sets, Option.map_map]
  rfl

theorem itemStatus_updateItem_kept (id : String) (keeps : ∀ item, (change item).id = item.id)
    (status : ∀ item, (change item).status = item.status) :
    (desk.updateItem id change).itemStatus = desk.itemStatus := by
  funext other
  unfold Desk.itemStatus Desk.item Desk.updateItem
  rw [lookup_updateAt fun item key => (keeps item).trans key]
  split
  · rename_i same
    rw [same, Option.map_map]
    exact congrArg (Option.map · _) (funext status)
  · rfl

theorem jobStatus_updateJob (id : String) {change : AnalysisJob → AnalysisJob} {status : JobStatus}
    (keeps : ∀ job, (change job).id = job.id) (sets : ∀ job, (change job).status = status) :
    (desk.updateJob id change).jobStatus = setEntry desk.jobStatus id status := by
  funext other
  unfold setEntry Desk.jobStatus Desk.job Desk.updateJob
  rw [map_lookup_updateAt (fun job key => (keeps job).trans key) sets, Option.map_map]
  rfl

/-- Jobs stay as they are; a new one is not cancelled. -/
structure Desk.JobsKept (desk next : Desk) : Prop where
  kept : ∀ id status, desk.jobStatus id = some status → next.jobStatus id = some status
  added : ∀ id, desk.jobStatus id = none → next.jobStatus id ≠ some .cancelled

theorem Desk.JobsKept.of_eq (same : next.jobStatus = desk.jobStatus) : desk.JobsKept next := by
  refine ⟨fun id status found => same ▸ found, fun id absent => ?_⟩
  rw [same, absent]
  exact nofun

/-- What a store call does to the statuses: it writes one item or one job its call has in hand, or
no status at all. -/
inductive Effect (task : Task) (desk next : Desk) : Prop where
  | kept (items : next.itemStatus = desk.itemStatus) (jobs : next.jobStatus = desk.jobStatus)
  | analysed (id : String) (status : DropItemStatus) (hand : task.analyses = some id)
      (unresolved : status.isResolved = false)
      (items : next.itemStatus = setEntry desk.itemStatus id status) (jobs : desk.JobsKept next)
  | decided (id : String) (status : DropItemStatus) (hand : task.decides = some (id, status))
      (items : next.itemStatus = setEntry desk.itemStatus id status)
      (jobs : next.jobStatus = desk.jobStatus)
  | moved (id : String) (status : JobStatus) (hand : task.holds = some id)
      (pending : status ≠ .cancelled) (items : next.itemStatus = desk.itemStatus)
      (jobs : next.jobStatus = setEntry desk.jobStatus id status)
  | cancelled (id : String) (hand : task.cancels = some id)
      (items : next.itemStatus = desk.itemStatus)
      (jobs : next.jobStatus = setEntry desk.jobStatus id .cancelled)

/-- What a call takes in hand: an item it loads, a job it finds not cancelled. -/
structure Takes (task task' : Task) (desk : Desk) : Prop where
  items : ∀ id, task'.analyses = some id →
    task.analyses = some id ∨ task.loads = some id ∧ task.decides = none
  jobs : ∀ id, task'.holds = some id →
    task.holds = some id ∨ desk.jobStatus id ≠ some .cancelled ∧ task.cancels = none

theorem Takes.same
    (analyses : task'.analyses = task.analyses ∨ task'.analyses = none := by exact .inl rfl)
    (holds : task'.holds = task.holds ∨ task'.holds = none := by exact .inl rfl) :
    Takes task task' desk := by
  constructor
  · intro id taken
    rcases analyses with same | nothing
    · exact .inl (same ▸ taken)
    · rw [nothing] at taken
      cases taken
  · intro id taken
    rcases holds with same | nothing
    · exact .inl (same ▸ taken)
    · rw [nothing] at taken
      cases taken

theorem Takes.item {item : DropItem} (found : desk.item itemId = some item)
    (loads : task.loads = some itemId) (decides : task.decides = none)
    (analyses : task'.analyses = some item.id) (holds : task'.holds = task.holds) :
    Takes task task' desk := by
  constructor
  · intro id taken
    rw [analyses, lookup_key found] at taken
    exact .inr ⟨loads.trans taken, decides⟩
  · intro id taken
    exact .inl (holds ▸ taken)

theorem Takes.job {job : AnalysisJob} (found : desk.job jobId = some job)
    (live : job.status ≠ .cancelled) (cancels : task.cancels = none)
    (analyses : task'.analyses = none) (holds : task'.holds = some jobId) :
    Takes task task' desk := by
  constructor
  · intro id taken
    rw [analyses] at taken
    cases taken
  intro id taken
  rw [holds] at taken
  cases taken
  refine .inr ⟨?_, cancels⟩
  rw [Desk.jobStatus, found, Option.map_some]
  exact fun cancelled => live (Option.some.inj cancelled)

theorem jobsKept_created {item : DropItem} :
    desk.JobsKept (desk.createAnalysisJob item force freshId).1 := by
  unfold Desk.createAnalysisJob
  split
  · exact .of_eq rfl
  constructor
  · intro id status found
    obtain ⟨job, listed, rfl⟩ := Option.map_eq_some_iff.1 found
    refine Option.map_eq_some_iff.2 ⟨job, ?_, rfl⟩
    exact (lookup_append _).trans (congrArg (Option.or · _) listed)
  intro id absent cancelled
  obtain ⟨job, listed, status⟩ := Option.map_eq_some_iff.1 cancelled
  have missing : lookup AnalysisJob.id desk.jobs id = none := Option.map_eq_none_iff.1 absent
  have added := (lookup_append _).symm.trans listed
  rw [missing, Option.none_or] at added
  have created := List.mem_singleton.1 (lookup_mem added)
  rw [created] at status
  cases status

theorem effect_created {item : DropItem} (hand : task.analyses = some item.id) :
    Effect task desk (desk.createAnalysisJob item force freshId).1 := by
  have jobs := @jobsKept_created desk freshId force item
  unfold Desk.createAnalysisJob at jobs ⊢
  split at jobs
  · exact .kept rfl rfl
  · exact .analysed item.id .staged hand rfl
      (itemStatus_updateItem item.id) jobs

theorem effect_result {score : Nat} {hasCandidates : Bool} (hand : task.analyses = some itemId) :
    Effect task desk (desk.setItemAnalysisResult itemId score hasCandidates) := by
  refine .analysed itemId (if score < 100 ∨ hasCandidates then .awaitingReview else .ready) hand ?_
    (itemStatus_updateItem itemId) (.of_eq rfl)
  split <;> rfl

/-- A rewritten item keeps its status. -/
theorem effect_rewritten (keeps : ∀ item, (change item).id = item.id := by exact fun _ => rfl)
    (status : ∀ item, (change item).status = item.status := by exact fun _ => rfl) :
    Effect task desk (desk.updateItem itemId change) :=
  .kept (itemStatus_updateItem_kept itemId keeps status) rfl

theorem effect_moved {change : AnalysisJob → AnalysisJob} {status : JobStatus}
    (hand : task.holds = some jobId)
    (keeps : ∀ job, (change job).id = job.id := by exact fun _ => rfl)
    (sets : ∀ job, (change job).status = status := by exact fun _ => rfl)
    (pending : status ≠ .cancelled := by decide) :
    Effect task desk (desk.updateJob jobId change) :=
  .moved jobId status hand pending rfl (jobStatus_updateJob jobId keeps sets)

/-- A step writes what its call has in hand, and takes in hand what it found. -/
def Traced (task : Task) (desk : Desk) (outcome : Option (Desk × Task)) : Prop :=
  ∀ step ∈ outcome, Effect task desk step.1 ∧ Takes task step.2 desk

theorem traced_none : Traced task desk none := by
  rintro _ ⟨⟩

theorem traced_some (effect : Effect task desk next) (takes : Takes task task' desk) :
    Traced task desk (some (next, task')) := by
  rintro _ ⟨⟩
  exact ⟨effect, takes⟩

/-- A call that goes on without a write. -/
theorem traced_on (takes : Takes task task' desk) : Traced task desk (some (desk, task')) :=
  traced_some (.kept rfl rfl) takes

theorem takes_done : Takes task .done desk := .same (.inr rfl) (.inr rfl)

theorem traced_done : Traced task desk (some (desk, .done)) := traced_on takes_done

/-- A call that writes its decision and ends. -/
theorem traced_decided (hand : task.decides = some (itemId, status) := by rfl)
    (keeps : ∀ item, (change item).id = item.id := by exact fun _ => rfl)
    (sets : ∀ item, (change item).status = status := by exact fun _ => rfl) :
    Traced task desk (some (desk.updateItem itemId change, .done)) :=
  traced_some (.decided itemId status hand (itemStatus_updateItem itemId keeps sets) rfl)
    takes_done

section Calls

variable (result) {items rest : List String} {item : DropItem} {expectedRevision : Nat}

theorem traced_enqueue :
    Traced (.enqueue items force) desk (Task.advance result (.enqueue items force) desk) := by
  cases items with
  | nil => exact traced_done
  | cons itemId rest =>
    simp only [Task.advance]
    split
    · exact traced_done
    · exact traced_on (.item ‹_› rfl rfl rfl rfl)

theorem traced_enqueueCreate :
    Traced (.enqueueCreate item rest force) desk
      (Task.advance result (.enqueueCreate item rest force) desk) := by
  simp only [Task.advance]
  split
  · split
    · exact traced_none
    rename_i freshId _
    have created := @effect_created desk (.enqueueCreate item rest force) freshId force item rfl
    refine traced_some ?_ (.same (.inr rfl))
    cases created with
    | kept items jobs => exact .kept items jobs
    | analysed id status hand unresolved items jobs =>
      exact .analysed id status hand unresolved items ⟨jobs.kept, jobs.added⟩
    | decided id status hand | moved id status hand | cancelled id hand => cases hand
  · exact traced_none

theorem traced_pause : Traced (.pause jobId) desk (Task.advance result (.pause jobId) desk) := by
  simp only [Task.advance]
  split
  · exact traced_done
  split
  · rename_i found pending
    refine traced_on (.job found ?_ rfl rfl rfl)
    rcases pending with status | status <;> rw [status] <;> decide
  · exact traced_done

theorem traced_resume : Traced (.resume jobId) desk (Task.advance result (.resume jobId) desk) := by
  simp only [Task.advance]
  split
  · exact traced_done
  split
  · rename_i found paused
    refine traced_on (.job found ?_ rfl rfl rfl)
    rw [paused]
    decide
  · exact traced_done

theorem traced_cancel : Traced (.cancel jobId) desk (Task.advance result (.cancel jobId) desk) := by
  simp only [Task.advance]
  split
  · exact traced_done
  split
  · exact traced_on .same
  · exact traced_done

theorem traced_run : Traced (.run jobId) desk (Task.advance result (.run jobId) desk) := by
  simp only [Task.advance]
  split
  · split
    · exact traced_some (.kept rfl rfl) takes_done
    split
    · exact traced_some (.kept rfl rfl) takes_done
    · rename_i found live
      refine traced_some (.kept rfl rfl)
        (.job found (fun cancelled => live (.inr cancelled)) rfl rfl ?_)
      exact congrArg some (lookup_key found)
  · exact traced_none

theorem traced_runPreprocess :
    Traced (.runPreprocess jobId item) desk
      (Task.advance result (.runPreprocess jobId item) desk) := by
  simp only [Task.advance]
  split
  · split
    · exact traced_none
    · exact traced_some effect_rewritten .same
  · split
    · exact traced_none
    · exact traced_some (.analysed item.id .failed rfl rfl (itemStatus_updateItem item.id)
        (.of_eq rfl)) (.same (.inr rfl))
  · exact traced_on (.same (.inr rfl))
  · exact traced_on .same

theorem traced_approve :
    Traced (.approve itemId expectedRevision) desk
      (Task.advance result (.approve itemId expectedRevision) desk) := by
  simp only [Task.advance]
  split
  · exact traced_done
  split
  · exact traced_done
  · exact traced_on .same

end Calls

/-- Every store call writes what its call has in hand, and takes in hand what it found. -/
theorem advance_effect (advanced : task.advance result desk = some (next, task')) :
    Effect task desk next ∧ Takes task task' desk := by
  have traced : Traced task desk (task.advance result desk) := by
    cases task with simp only [Task.advance]
    | enqueue => exact traced_enqueue result
    | enqueueCreate => exact traced_enqueueCreate result
    | pause => exact traced_pause result
    | resume => exact traced_resume result
    | cancel => exact traced_cancel result
    | run => exact traced_run result
    | runPreprocess => exact traced_runPreprocess result
    | approve => exact traced_approve result
    | enqueueLatest =>
      split
      · exact traced_on (.same (.inr rfl))
      · exact traced_on .same
    | retry | reject =>
      split
      · exact traced_done
      · exact traced_on .same
    | pauseWrite | runFailed => exact traced_some (effect_moved rfl) takes_done
    | resumeWrite jobId =>
      exact traced_some (.moved jobId .queued rfl (by decide) rfl
        (jobStatus_updateJob jobId (fun _ => rfl) fun _ => rfl)) takes_done
    | cancelWrite jobId =>
      exact traced_some (.cancelled jobId rfl rfl
        (jobStatus_updateJob jobId (fun _ => rfl) fun _ => rfl)) takes_done
    | runStart => exact traced_some (effect_moved rfl) .same
    | runItem | qualityFix =>
      split
      · exact traced_done
      · exact traced_on (.item ‹_› rfl rfl rfl rfl)
    | runReport =>
      split
      · exact traced_on (.same (.inr rfl))
      · exact traced_some effect_rewritten .same
    | runResult =>
      split
      · exact traced_some (effect_result rfl) (.same (.inr rfl))
      · exact traced_on (.same (.inr rfl))
      · exact traced_none
    | runDone =>
      split
      · exact traced_on .same
      · exact traced_some (effect_moved rfl) takes_done
    | fixRewrite =>
      split
      · exact traced_some effect_rewritten .same
      · exact traced_done
      · exact traced_on .same
    | fixReport =>
      split
      · exact traced_done
      · exact traced_some effect_rewritten .same
    | fixResult =>
      split
      · exact traced_some (effect_result rfl) takes_done
      · exact traced_done
    | approveCommit item =>
      split
      · exact traced_decided
      · exact traced_done
    | rejectWrite item reason =>
      split
      · exact traced_done
      · exact traced_decided
    | done => exact traced_none
  exact traced _ advanced

end Effects

section Finality

variable {other : Task} {id : String}

/-- An analysis has in hand only what is unresolved. -/
structure Task.Fresh (task : Task) (desk : Desk) : Prop where
  items : ∀ id, task.analyses = some id → ¬ desk.Resolved id
  jobs : ∀ id, task.holds = some id → desk.jobStatus id ≠ some .cancelled

theorem not_resolved_setEntry {id id' : String}
    (items : next.itemStatus = setEntry desk.itemStatus id' status)
    (unresolved : id = id' → status.isResolved = false) (before : ¬ desk.Resolved id) :
    ¬ next.Resolved id := by
  rintro ⟨found, listed, resolved⟩
  rw [items, setEntry] at listed
  split at listed
  · rename_i same
    obtain ⟨_, -, rfl⟩ := Option.map_eq_some_iff.1 listed
    rw [unresolved same] at resolved
    cases resolved
  · exact before ⟨found, listed, resolved⟩

/-- Only a decision resolves an item. -/
theorem Effect.unresolved (effect : Effect task desk next)
    (undecided : ∀ status, task.decides ≠ some (id, status)) (before : ¬ desk.Resolved id) :
    ¬ next.Resolved id := by
  cases effect with
  | kept items jobs | moved id' status hand pending items jobs | cancelled id' hand items jobs =>
    unfold Desk.Resolved at before ⊢
    rwa [items]
  | analysed id' status hand unresolved items jobs =>
    exact not_resolved_setEntry items (fun _ => unresolved) before
  | decided id' status hand items jobs =>
    refine not_resolved_setEntry items (fun same => ?_) before
    exact absurd (same ▸ hand) (undecided status)

/-- Only a cancellation cancels a job. -/
theorem Effect.live (effect : Effect task desk next) (spared : task.cancels ≠ some id)
    (before : desk.jobStatus id ≠ some .cancelled) : next.jobStatus id ≠ some .cancelled := by
  cases effect with
  | kept items jobs | decided id' status hand items jobs => rwa [jobs]
  | analysed id' status hand unresolved items jobs =>
    cases found : desk.jobStatus id with
    | none => exact jobs.added id found
    | some status' => rwa [jobs.kept id status' found, ← found]
  | moved id' status hand pending items jobs =>
    rw [jobs, setEntry]
    split
    · intro cancelled
      obtain ⟨_, -, same⟩ := Option.map_eq_some_iff.1 cancelled
      exact pending same
    · exact before
  | cancelled id' hand items jobs =>
    rw [jobs, setEntry, if_neg fun same : id = id' => spared (same ▸ hand)]
    exact before

/-- A considerate step of a call with fresh hands changes no resolved work. -/
theorem Effect.final (effect : Effect task pool.shared next) (fresh : task.Fresh pool.shared)
    (considerate : task.Considerate pool) : pool.shared.Final next := by
  cases effect with
  | kept items jobs => exact ⟨fun id cancelled => jobs ▸ cancelled, fun id _ => congrFun items id⟩
  | analysed id status hand unresolved items jobs =>
    refine ⟨fun id' cancelled => jobs.kept id' _ cancelled, fun id' resolved => ?_⟩
    rw [items, setEntry, if_neg fun same : id' = id => fresh.items id hand (same ▸ resolved)]
  | decided id status hand items jobs =>
    refine ⟨fun id' cancelled => jobs ▸ cancelled, fun id' resolved => ?_⟩
    rw [items, setEntry]
    split
    · rename_i same
      subst same
      rw [(considerate.decides _ hand).1 resolved]
      rfl
    · rfl
  | moved id status hand pending items jobs =>
    refine ⟨fun id' cancelled => ?_, fun id' _ => congrFun items id'⟩
    rw [jobs, setEntry, if_neg fun same : id' = id => fresh.jobs id hand (same ▸ cancelled)]
    exact cancelled
  | cancelled id hand items jobs =>
    refine ⟨fun id' cancelled => ?_, fun id' _ => congrFun items id'⟩
    rw [jobs, setEntry]
    split
    · rename_i same
      rw [← same, cancelled]
      rfl
    · exact cancelled

/-- Other calls keep fresh hands through a considerate step. -/
theorem Effect.fresh (effect : Effect task pool.shared next) (considerate : task.Considerate pool)
    (listed : other ∈ pool.threads) (fresh : other.Fresh pool.shared) : other.Fresh next := by
  constructor
  · intro id hand
    refine effect.unresolved (fun status decides => ?_) (fresh.items id hand)
    exact (considerate.decides _ decides).2 other listed hand
  · intro id hand
    refine effect.live (fun cancels => ?_) (fresh.jobs id hand)
    exact considerate.cancels id cancels other listed hand

/-- So does the call that takes the step. -/
theorem Effect.takes (effect : Effect task pool.shared next) (considerate : task.Considerate pool)
    (listed : task ∈ pool.threads) (fresh : task.Fresh pool.shared)
    (takes : Takes task task' pool.shared) : task'.Fresh next := by
  have kept := effect.fresh considerate listed fresh
  constructor
  · intro id hand
    rcases takes.items id hand with held | ⟨loads, decides⟩
    · exact kept.items id held
    · refine effect.unresolved (fun status decides' => ?_) (considerate.loads id loads)
      rw [decides] at decides'
      cases decides'
  · intro id hand
    rcases takes.jobs id hand with held | ⟨before, cancels⟩
    · exact kept.jobs id held
    · refine effect.live (fun cancels' => ?_) before
      rw [cancels] at cancels'
      cases cancels'

/-- Calls have fresh hands. -/
abbrev FreshHands : Pool Desk Task → Prop :=
  Pool.Holds (fun _ => True) Task.Fresh fun _ _ => True

theorem fresh_enter (call : Call) (desk : Desk) : call.enter.Fresh desk := by
  constructor <;> intro id hand <;> cases call <;> cases hand

/-- A considerate turn keeps the hands fresh and the resolved work as it is. -/
theorem considerate_turn {turn : PoolTurn Call WorkResult} {next : Pool Desk Task}
    (hands : FreshHands pool) (considerate : Considerate turn pool)
    (performed : coordinator turn pool = some next) :
    FreshHands next ∧ pool.shared.Final next.shared := by
  cases turn with
  | start call =>
    cases performed
    exact ⟨hands.start (fresh_enter call _) fun _ _ => ⟨trivial, trivial⟩,
      fun _ cancelled => cancelled, fun _ _ => rfl⟩
  | move index result =>
    obtain ⟨task, desk, task', found, advanced, rfl⟩ := Pool.machine_move performed
    obtain ⟨effect, takes⟩ := advance_effect advanced
    have polite := considerate task found
    have fresh := hands.each index task found
    have listed := List.mem_of_getElem? found
    refine ⟨hands.move found trivial (effect.takes polite listed fresh takes) ?_,
      effect.final fresh polite⟩
    intro place other _ there held _ _
    exact ⟨effect.fresh polite (List.mem_of_getElem? there) held, trivial, trivial⟩

theorem freshHands_of_reachable
    (reachable : (coordinator.guarded Idle Considerate).Reachable pool) : FreshHands pool := by
  refine Machine.guarded_invariant (I := FreshHands) ?_ ?_ reachable
  · intro start idle
    refine ⟨trivial, fun index task found => ?_, fun _ _ _ _ _ _ _ => trivial⟩
    rw [idle] at found
    cases found
  · intro pool next turn hands considerate performed
    exact (considerate_turn hands considerate performed).1

theorem Desk.Final.trans {first second third : Desk} (one : first.Final second)
    (two : second.Final third) : first.Final third := by
  refine ⟨fun id cancelled => two.jobs id (one.jobs id cancelled), fun id resolved => ?_⟩
  have kept := one.items id resolved
  have resolved' : second.Resolved id := by
    unfold Desk.Resolved
    rw [kept]
    exact resolved
  exact (two.items id resolved').trans kept

/-- In every run of considerate steps, cancelled jobs stay cancelled, committed items committed and
rejected items rejected. -/
theorem resolved_work_stays_resolved {earlier later : Pool Desk Task}
    (reached : (coordinator.guarded Idle Considerate).Reachable earlier)
    (steps : (coordinator.guarded Idle Considerate).Steps earlier later) :
    earlier.shared.Final later.shared := by
  refine System.Steps.rel (R := fun earlier later : Pool Desk Task =>
    earlier.shared.Final later.shared)
    (fun pool => ⟨fun _ cancelled => cancelled, fun _ _ => rfl⟩) (fun one two => one.trans two)
    (fun pool next reachable transition => ?_) reached steps
  obtain ⟨turn, considerate, performed⟩ := transition
  exact (considerate_turn (freshHands_of_reachable reachable) considerate performed).2

/-- An analysis is enqueued twice; the first job is cancelled, the second runs and the item is
approved. -/
def settledTurns : List (PoolTurn Call WorkResult) :=
  [.start (.enqueue ["item"] false), .move 0 .fine, .move 0 .fine, .move 0 (.fresh "one"),
    .move 0 .fine, .start (.cancel "one"), .move 1 .fine, .move 1 .fine, .start (.retry "one"),
    .move 2 .fine, .move 2 .fine, .move 2 .fine, .move 2 (.fresh "two"), .move 2 .fine,
    .start (.run "two"), .move 3 .fine, .move 3 .fine, .move 3 .fine, .move 3 .fine, .move 3 .fine,
    .move 3 (.analysed 100 false), .move 3 .fine, .start (.approve "item" 5), .move 4 .fine,
    .move 4 (.fresh "media")]

def queuedItem : DropItem where
  id := "item"
  libraryId := "library"
  sourceFilename := "a.cbz"
  byteSize := 3
  sourceSha256 := "digest"
  stagingPath := ["staging", "library", "digest-a.cbz"]

def queuedPool : Pool Desk Task := ⟨{ items := [queuedItem] }, []⟩

theorem idle_queuedPool : Idle queuedPool := rfl

def Desk.statuses (desk : Desk) (itemId jobId : String) :
    Option DropItemStatus × Option JobStatus :=
  (desk.itemStatus itemId, desk.jobStatus jobId)

theorem resolved_work_stays_resolved_sample : ∃ earlier later : Pool Desk Task,
    earlier.shared.statuses "item" "one" = (some .committed, some .cancelled) ∧
      earlier.shared.Final later.shared ∧ later.shared.spawned = [] := by
  have ran : ((coordinator.guardedRun Considerate
      (settledTurns ++ [.start (.run "one"), .move 5 .fine]) queuedPool).map
        fun pool => pool.shared.spawned) = some [] := by decide +kernel
  have seen : ((coordinator.guardedRun Considerate settledTurns queuedPool).map
      fun pool => pool.shared.statuses "item" "one") = some (some .committed, some .cancelled) := by
    decide +kernel
  obtain ⟨later, ran, spawned⟩ := Option.map_eq_some_iff.1 ran
  rw [Machine.guardedRun_append] at ran
  obtain ⟨earlier, before, after⟩ := Option.bind_eq_some_iff.1 ran
  rw [before] at seen
  exact ⟨earlier, later, Option.some.inj seen,
    resolved_work_stays_resolved (Machine.reachable_of_guardedRun idle_queuedPool before)
      (Machine.steps_of_guardedRun after), spawned⟩

/-- An analysis is enqueued and begun; before it stores its result, the item is approved and the job
cancelled. -/
def overtakenTurns : List (PoolTurn Call WorkResult) :=
  [.start (.enqueue ["item"] false), .move 0 .fine, .move 0 .fine, .move 0 (.fresh "job"),
    .move 0 .fine, .start (.run "job"), .move 1 .fine, .move 1 .fine, .move 1 .fine, .move 1 .fine,
    .move 1 .fine, .start (.approve "item" 3), .move 2 .fine, .move 2 (.fresh "media"),
    .start (.cancel "job"), .move 3 .fine, .move 3 .fine]

theorem analysis_overwrites_decisions : ∃ earlier later : Pool Desk Task,
    (coordinator.system Idle).Reachable earlier ∧ (coordinator.system Idle).Steps earlier later ∧
      earlier.shared.statuses "item" "job" = (some .committed, some .cancelled) ∧
        later.shared.statuses "item" "job" = (some .awaitingReview, some .completed) := by
  have ran : ((coordinator.run (overtakenTurns ++ [.move 1 (.analysed 90 false), .move 1 .fine])
      queuedPool).map fun pool => pool.shared.statuses "item" "job") =
        some (some .awaitingReview, some .completed) := by decide +kernel
  have seen : ((coordinator.run overtakenTurns queuedPool).map
      fun pool => pool.shared.statuses "item" "job") = some (some .committed, some .cancelled) := by
    decide +kernel
  obtain ⟨later, ran, last⟩ := Option.map_eq_some_iff.1 ran
  rw [Machine.run_append] at ran
  obtain ⟨earlier, before, after⟩ := Option.bind_eq_some_iff.1 ran
  rw [before] at seen
  exact ⟨earlier, later, Machine.reachable_of_run idle_queuedPool before,
    Machine.steps_of_run after,
    Option.some.inj seen, last⟩

end Finality

end Coppice.Ingest
