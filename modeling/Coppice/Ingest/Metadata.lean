import Coppice.Std.Batch
import Coppice.Std.Json
import Coppice.Std.Text

/-!
# Metadata picks

An editor picks a source for each field of a book: what is there, a candidate's value, a value
typed by hand, or nothing. Picks are checked, then resolved against the candidates of one item.
-/

namespace Coppice.Ingest

open Coppice.Std List

/-- Canonical metadata fields, in the order of their declaration. -/
inductive MetadataField where
  | title | sortTitle | series | seriesIndex | authors | narrators | publisher | publishedDate
  | language | summary | tags | genres | isbn | identifiers | ageRating | pageCount | coverUrl
  | status
deriving DecidableEq, Repr

namespace MetadataField

/-- Every field, in the order a map keyed by fields iterates. -/
def all : List MetadataField :=
  [title, sortTitle, series, seriesIndex, authors, narrators, publisher, publishedDate, language,
    summary, tags, genres, isbn, identifiers, ageRating, pageCount, coverUrl, status]

theorem mem_all (field : MetadataField) : field ∈ all := by
  cases field <;> decide

/-- The name a field is serialized as. -/
def name : MetadataField → String
  | title => "TITLE"
  | sortTitle => "SORT_TITLE"
  | series => "SERIES"
  | seriesIndex => "SERIES_INDEX"
  | authors => "AUTHORS"
  | narrators => "NARRATORS"
  | publisher => "PUBLISHER"
  | publishedDate => "PUBLISHED_DATE"
  | language => "LANGUAGE"
  | summary => "SUMMARY"
  | tags => "TAGS"
  | genres => "GENRES"
  | isbn => "ISBN"
  | identifiers => "IDENTIFIERS"
  | ageRating => "AGE_RATING"
  | pageCount => "PAGE_COUNT"
  | coverUrl => "COVER_URL"
  | status => "STATUS"

/-- The field a serialized name stands for. -/
def ofName : String → Option MetadataField
  | "TITLE" => some title
  | "SORT_TITLE" => some sortTitle
  | "SERIES" => some series
  | "SERIES_INDEX" => some seriesIndex
  | "AUTHORS" => some authors
  | "NARRATORS" => some narrators
  | "PUBLISHER" => some publisher
  | "PUBLISHED_DATE" => some publishedDate
  | "LANGUAGE" => some language
  | "SUMMARY" => some summary
  | "TAGS" => some tags
  | "GENRES" => some genres
  | "ISBN" => some isbn
  | "IDENTIFIERS" => some identifiers
  | "AGE_RATING" => some ageRating
  | "PAGE_COUNT" => some pageCount
  | "COVER_URL" => some coverUrl
  | "STATUS" => some status
  | _ => none

/-- The name of a field in a debug message. -/
def debugName : MetadataField → String
  | title => "Title"
  | sortTitle => "SortTitle"
  | series => "Series"
  | seriesIndex => "SeriesIndex"
  | authors => "Authors"
  | narrators => "Narrators"
  | publisher => "Publisher"
  | publishedDate => "PublishedDate"
  | language => "Language"
  | summary => "Summary"
  | tags => "Tags"
  | genres => "Genres"
  | isbn => "Isbn"
  | identifiers => "Identifiers"
  | ageRating => "AgeRating"
  | pageCount => "PageCount"
  | coverUrl => "CoverUrl"
  | status => "Status"

@[simp] theorem ofName_name (field : MetadataField) : ofName field.name = some field := by
  cases field <;> rfl

theorem ofName_eq_some {key : String} {field : MetadataField} :
    ofName key = some field ↔ key = field.name := by
  refine ⟨fun found => ?_, fun same => same ▸ ofName_name field⟩
  unfold ofName at found
  split at found <;> cases found <;> rfl

theorem name_injective : Function.Injective name := by
  intro left right same
  have read := congrArg ofName same
  rwa [ofName_name, ofName_name, Option.some.injEq] at read

/-- The fields with a list of texts as value. -/
def isListField : MetadataField → Bool
  | authors | narrators | tags | genres => true
  | _ => false

end MetadataField

/-- How one field is resolved by an apply request. -/
inductive FieldPick where
  | keepExisting (field : MetadataField)
  | candidate (field : MetadataField) (candidateId : String)
  | manual (field : MetadataField) (value : Json)
  | clear (field : MetadataField)
deriving DecidableEq, Repr

def FieldPick.field : FieldPick → MetadataField
  | keepExisting field | candidate field _ | manual field _ | clear field => field

inductive MergeStrategy where
  | fillGaps | fillAndMergeLists | preferExternal | preferExternalAndMergeLists
deriving DecidableEq, Repr

inductive ApplyError where
  | unsupportedFields (fields : List MetadataField)
  | invalidPick (reason : String)
  | candidateNotFound (candidateId : String)
  | candidateMismatch (candidateId : String)
  | candidateFieldMissing (candidateId : String) (field : MetadataField)
  | invalidValue (field : MetadataField)
deriving DecidableEq, Repr

variable {picks : List FieldPick} {item digest : Option String}

section Validation

variable {field : MetadataField} {value : Json}

/-- The fields with a place in the library's tables. -/
def storableFields : List MetadataField :=
  [.title, .sortTitle, .series, .seriesIndex, .authors, .narrators, .publisher, .publishedDate,
    .language, .summary, .tags, .coverUrl, .genres, .isbn, .ageRating, .pageCount]

def coverUrl (value : Json) : Option String :=
  (value.asStr.or ((value.get "url").bind Json.asStr)).filter fun url => trim url ≠ ""

/-- Whether a value has the type of a field. -/
def hasType : MetadataField → Json → Bool
  | .coverUrl, value => (coverUrl value).isSome
  | .seriesIndex, .int _ | .seriesIndex, .float _ => true
  | .seriesIndex, _ => false
  | .ageRating, .int value | .pageCount, .int value => -2 ^ 63 ≤ value && value < 2 ^ 63
  | .ageRating, _ | .pageCount, _ => false
  | .authors, .arr items | .narrators, .arr items | .tags, .arr items | .genres, .arr items =>
    items.all fun item => item.asStr.isSome
  | .authors, _ | .narrators, _ | .tags, _ | .genres, _ => false
  | .identifiers, .obj _ => true
  | .identifiers, _ => false
  | _, value => value.asStr.isSome

def validateValue (field : MetadataField) (value : Json) : Except ApplyError Unit :=
  if hasType field value then .ok () else .error (.invalidValue field)

/-- The rules for one pick on its own. -/
def validatePick : FieldPick → Except ApplyError Unit
  | .keepExisting _ | .clear _ => .ok ()
  | .candidate _ candidateId =>
    if trim candidateId = "" then
      .error (.invalidPick "CANDIDATE requires a non-empty candidateId")
    else .ok ()
  | .manual field value =>
    if value.isNull then
      .error (.invalidPick ("MANUAL for " ++ field.debugName ++
        " requires a non-null value; use CLEAR to clear"))
    else validateValue field value

/-- The loop of `validate_picks`, with the fields seen so far. -/
def validateEach : List MetadataField → List FieldPick → Except ApplyError Unit
  | _, [] => .ok ()
  | seen, pick :: rest =>
    if pick.field ∈ seen then
      .error (.invalidPick ("field " ++ pick.field.debugName ++ " appears more than once"))
    else do
      validatePick pick
      validateEach (pick.field :: seen) rest

/-- The picked fields that cannot be stored, in the order of a set of fields. -/
def unsupportedFields (picks : List FieldPick) : List MetadataField :=
  MetadataField.all.filter fun field => field ∉ storableFields ∧ field ∈ picks.map FieldPick.field

def validatePicks (picks : List FieldPick) : Except ApplyError Unit :=
  match unsupportedFields picks with
  | [] => validateEach [] picks
  | unsupported => .error (.unsupportedFields unsupported)

/-- What `validate_picks` accepts: storable fields, each picked once, with a well-formed pick. -/
structure ValidPicks (picks : List FieldPick) : Prop where
  storable : ∀ pick ∈ picks, pick.field ∈ storableFields
  distinct : (picks.map FieldPick.field).Nodup
  each : ∀ pick ∈ picks, validatePick pick = .ok ()

theorem hasType_null (field : MetadataField) : hasType field .null = false := by
  cases field <;> rfl

theorem isNull_of_hasType (typed : hasType field value = true) : value.isNull = false := by
  cases value with
  | null => rw [hasType_null] at typed; cases typed
  | bool | int | float | str | arr | obj => rfl

theorem validateValue_ok : validateValue field value = .ok () ↔ hasType field value = true := by
  unfold validateValue
  split <;> simp_all

theorem validatePick_manual :
    validatePick (.manual field value) = .ok () ↔ hasType field value = true := by
  simp only [validatePick]
  split
  · rename_i null
    simp only [reduceCtorEq, false_iff]
    intro typed
    rw [isNull_of_hasType typed] at null
    cases null
  · exact validateValue_ok

theorem unsupportedFields_eq_nil :
    unsupportedFields picks = [] ↔ ∀ pick ∈ picks, pick.field ∈ storableFields := by
  simp only [unsupportedFields, filter_eq_nil_iff, decide_eq_true_eq, not_and, mem_map,
    not_exists]
  constructor
  · intro none pick member
    by_contra unsupported
    exact none pick.field (MetadataField.mem_all _) unsupported pick member rfl
  · rintro storable field - unsupported pick member rfl
    exact unsupported (storable pick member)

theorem validateEach_ok {seen : List MetadataField} :
    validateEach seen picks = .ok () ↔ (picks.map FieldPick.field).Nodup ∧
      (∀ pick ∈ picks, pick.field ∉ seen) ∧ ∀ pick ∈ picks, validatePick pick = .ok () := by
  induction picks generalizing seen with
  | nil => simp [validateEach]
  | cons pick rest ih =>
    unfold validateEach
    by_cases again : pick.field ∈ seen
    · simp [again]
    rw [if_neg again, bind_eq_ok]
    simp only [ih, map_cons, nodup_cons, mem_map,
      mem_cons, not_or, forall_eq_or_imp]
    constructor
    · rintro ⟨_, valid, distinct, fresh, each⟩
      refine ⟨⟨?_, distinct⟩, ⟨again, fun other member => (fresh other member).2⟩, valid, each⟩
      rintro ⟨other, member, same⟩
      exact (fresh other member).1 same
    · rintro ⟨⟨apart, distinct⟩, ⟨-, fresh⟩, valid, each⟩
      refine ⟨(), valid, distinct, fun other member => ⟨fun same => ?_, fresh other member⟩, each⟩
      exact apart ⟨other, member, same⟩

theorem validatePicks_ok : validatePicks picks = .ok () ↔ ValidPicks picks := by
  unfold validatePicks
  cases unsupported : unsupportedFields picks with
  | nil =>
    have storable := unsupportedFields_eq_nil.1 unsupported
    constructor
    · intro valid
      obtain ⟨distinct, -, each⟩ := validateEach_ok.1 valid
      exact ⟨storable, distinct, each⟩
    · intro valid
      exact validateEach_ok.2 ⟨valid.distinct, fun _ _ => not_mem_nil, valid.each⟩
  | cons field rest =>
    simp only [reduceCtorEq, false_iff]
    intro valid
    rw [unsupportedFields_eq_nil.2 valid.storable] at unsupported
    cases unsupported

end Validation

section Resolution

/-- A candidate row: whom it describes, the bytes it was found for, and its values. -/
structure Candidate where
  id : String
  dropItemId : Option String
  mediaId : Option String
  sourceSha256 : String
  fields : Json
deriving DecidableEq, Repr

/-- The columns of a book's metadata that say whether a field is filled. -/
structure MediaMetadata where
  title : Option String := none
  titleSort : Option String := none
  series : Option String := none
  number : Option ℚ := none
  writers : Option String := none
  narrators : Option String := none
  publisher : Option String := none
  year : Option Int := none
  month : Option Int := none
  day : Option Int := none
  language : Option String := none
  summary : Option String := none
  genres : Option String := none
  identifierIsbn : Option String := none
  ageRating : Option Int := none
  pageCount : Option Int := none
deriving DecidableEq, Repr

def nonEmpty (value : String) : Bool := trim value ≠ ""

def fieldIsPresent (field : MetadataField) (model : MediaMetadata) : Bool :=
  match field with
  | .title => model.title.any nonEmpty
  | .sortTitle => model.titleSort.any nonEmpty
  | .series => model.series.any nonEmpty
  | .seriesIndex => model.number.isSome
  | .authors => model.writers.any nonEmpty
  | .narrators => model.narrators.any nonEmpty
  | .publisher => model.publisher.any nonEmpty
  | .publishedDate => model.year.isSome || model.month.isSome || model.day.isSome
  | .language => model.language.any nonEmpty
  | .summary => model.summary.any nonEmpty
  | .tags => false
  | .genres => model.genres.any nonEmpty
  | .isbn => model.identifierIsbn.any nonEmpty
  | .ageRating => model.ageRating.isSome
  | .pageCount => model.pageCount.isSome
  | .coverUrl | .identifiers | .status => false

def existingList (field : MetadataField) (model : MediaMetadata) : Option (List String) :=
  let column := match field with
    | .authors => model.writers
    | .narrators => model.narrators
    | .genres => model.genres
    | _ => none
  (column.map fun value => ((split ',' value).map trim).filter (· ≠ "")).filter (· ≠ [])

def shouldApplyCandidate (field : MetadataField) (existing : Option MediaMetadata)
    (strategy : MergeStrategy) : Bool :=
  match existing with
  | none => true
  | some existing =>
    match strategy with
    | .fillGaps | .fillAndMergeLists => !fieldIsPresent field existing
    | .preferExternal | .preferExternalAndMergeLists => true

def mergesLists : MergeStrategy → Bool
  | .fillAndMergeLists | .preferExternalAndMergeLists => true
  | .fillGaps | .preferExternal => false

/-- The texts of a candidate's list that are not blank. -/
def incomingTexts (field : MetadataField) (items : List Json) : Except ApplyError (List String) :=
  items.foldlM (fun texts item =>
    match item.asStr with
    | none => .error (.invalidValue field)
    | some text => .ok (if trim text = "" then texts else texts ++ [trim text])) []

def mergeCandidateValue (field : MetadataField) (value : Json) (existing : Option MediaMetadata)
    (strategy : MergeStrategy) : Except ApplyError Json :=
  if !mergesLists strategy || !field.isListField then .ok value
  else
    match existing.bind (existingList field), value with
    | none, _ => .ok value
    | some texts, .arr items => do
        let incoming ← incomingTexts field items
        .ok (.arr (((texts ++ incoming).dedup.mergeSort (· ≤ ·)).map .str))
    | some _, _ => .error (.invalidValue field)

/-- What a recipe comes to: the values to write and the fields to clear. -/
structure ResolvedFields where
  values : MetadataField → Option Json
  cleared : List MetadataField

def ResolvedFields.insert (resolved : ResolvedFields) (field : MetadataField) (value : Json) :
    ResolvedFields :=
  { resolved with
    values := fun other => if other = field then some value else resolved.values other }

/-- The values a candidate row holds, when its column is a map of known fields. -/
def decodeFields : Json → Option (List (MetadataField × Json))
  | .obj members => members.mapM fun member =>
    (MetadataField.ofName member.1).map fun field => (field, member.2)
  | _ => none

/-- The value a candidate supplies for a field. -/
def candidateValue (candidates : List Candidate) (field : MetadataField) (candidateId : String) :
    Except ApplyError Json :=
  match candidates.find? (·.id = candidateId) with
  | none => .error (.candidateNotFound candidateId)
  | some candidate =>
    match decodeFields candidate.fields with
    | none => .error (.candidateMismatch candidateId)
    | some fields =>
      match fields.lookup field with
      | none => .error (.candidateFieldMissing candidateId field)
      | some value => do
          validateValue field value
          .ok value

/-- One turn of the loop over the picks. -/
def resolvePick (candidates : List Candidate) (existing : Option MediaMetadata)
    (locked : List MetadataField) (strategy : MergeStrategy) (resolved : ResolvedFields)
    (pick : FieldPick) : Except ApplyError ResolvedFields :=
  if pick.field ∈ locked then .ok resolved
  else
    match pick with
    | .keepExisting _ => .ok resolved
    | .clear field => .ok { resolved with cleared := resolved.cleared ++ [field] }
    | .manual field value => .ok (resolved.insert field value)
    | .candidate field candidateId => do
        let value ← candidateValue candidates field candidateId
        if shouldApplyCandidate field existing strategy then do
          let merged ← mergeCandidateValue field value existing strategy
          .ok (resolved.insert field merged)
        else .ok resolved

/-- The one target and the one digest all candidates describe. -/
def candidateContext :
    List Candidate → Except ApplyError (Option (Option String × Option String × String))
  | [] => .ok none
  | first :: rest =>
    match rest.find? fun candidate => candidate.dropItemId ≠ first.dropItemId ∨
        candidate.mediaId ≠ first.mediaId ∨ candidate.sourceSha256 ≠ first.sourceSha256 with
    | some candidate => .error (.candidateMismatch candidate.id)
    | none =>
      if first.dropItemId = none ∧ first.mediaId = none then
        .error (.candidateMismatch first.id)
      else .ok (some (first.dropItemId, first.mediaId, first.sourceSha256))

/-- The checks of the candidates against the item they are to describe. -/
def checkContext (candidates : List Candidate)
    (expectedDropItemId expectedSourceSha256 : Option String) :
    Except ApplyError Unit := do
  let context ← candidateContext candidates
  if context.any fun found => expectedDropItemId.any fun expected => found.1 ≠ some expected then
    .error (.candidateMismatch "selected candidates")
  else if context.any fun found => expectedSourceSha256.any fun expected =>
    found.2.2 ≠ expected then
    .error (.candidateMismatch "selected candidates")
  else .ok ()

def resolvePicksForContext (picks : List FieldPick) (candidates : List Candidate)
    (existing : Option MediaMetadata) (locked : List MetadataField) (strategy : MergeStrategy)
    (expectedDropItemId expectedSourceSha256 : Option String) :
      Except ApplyError ResolvedFields := do
  validatePicks picks
  checkContext candidates expectedDropItemId expectedSourceSha256
  picks.foldlM (resolvePick candidates existing locked strategy) ⟨fun _ => none, []⟩

end Resolution

section Outcomes

variable {candidates : List Candidate} {strategy : MergeStrategy} {existing : Option MediaMetadata}
  {locked : List MetadataField} {pick : FieldPick} {resolved : ResolvedFields}

/-- What a pick does to its field when there is no book yet. -/
inductive Outcome where
  | keep
  | clear
  | set (value : Json)
deriving DecidableEq, Repr

def pickOutcome (candidates : List Candidate) : FieldPick → Except ApplyError Outcome
  | .keepExisting _ => .ok .keep
  | .clear _ => .ok .clear
  | .manual _ value => .ok (.set value)
  | .candidate field candidateId => (candidateValue candidates field candidateId).map .set

def ResolvedFields.record (resolved : ResolvedFields) (field : MetadataField) :
    Outcome → ResolvedFields
  | .keep => resolved
  | .clear => { resolved with cleared := resolved.cleared ++ [field] }
  | .set value => resolved.insert field value

/-- A candidate's value is taken as it is: there is no book yet, or it is preferred to what the
book has. -/
def TakesWhole (existing : Option MediaMetadata) (strategy : MergeStrategy) : Prop :=
  existing = none ∨ strategy = .preferExternal

/-- Where values are taken as they are, a pick decides its field unless that is locked. -/
theorem resolvePick_eq (whole : TakesWhole existing strategy)
    (unlocked : pick.field ∉ locked) (resolved : ResolvedFields) :
    resolvePick candidates existing locked strategy resolved pick =
      (pickOutcome candidates pick).map (resolved.record pick.field) := by
  unfold resolvePick
  rw [if_neg unlocked]
  cases pick with
  | keepExisting field | clear field | manual field value => rfl
  | candidate field candidateId =>
    have applied : shouldApplyCandidate field existing strategy = true := by
      rcases whole with rfl | rfl
      · rfl
      · cases existing <;> rfl
    have plain : ∀ value, mergeCandidateValue field value existing strategy = .ok value := by
      intro value
      unfold mergeCandidateValue
      rcases whole with rfl | rfl
      · split <;> rfl
      · rfl
    cases supplied : candidateValue candidates field candidateId with
    | error error =>
      simp only [pickOutcome, supplied]
      rfl
    | ok value =>
      simp only [pickOutcome, supplied, applied, if_true]
      simp only [bind, Except.bind, plain]
      rfl

/-- What picks come to, field by field: each pick decides its own field. -/
structure Resolves (candidates : List Candidate) (picks : List FieldPick)
    (resolved : ResolvedFields) :
    Prop where
  values : ∀ field value, resolved.values field = some value ↔
    ∃ pick ∈ picks, pick.field = field ∧ pickOutcome candidates pick = .ok (.set value)
  cleared : ∀ field, field ∈ resolved.cleared ↔
    ∃ pick ∈ picks, pick.field = field ∧ pickOutcome candidates pick = .ok .clear

theorem Resolves.nil : Resolves candidates [] ⟨fun _ => none, []⟩ where
  values := by simp
  cleared := by simp

theorem Resolves.concat {outcome : Outcome}
    (prior : Resolves candidates picks resolved) (fresh : pick.field ∉ picks.map FieldPick.field)
    (decided : pickOutcome candidates pick = .ok outcome) :
    Resolves candidates (picks ++ [pick]) (resolved.record pick.field outcome) where
  values field value := by
    have apart : pick.field = field → resolved.values field ≠ some value := by
      rintro rfl written
      obtain ⟨other, member, same, -⟩ := (prior.values _ _).1 written
      exact fresh (mem_map.2 ⟨other, member, same⟩)
    simp only [mem_append, mem_singleton, or_and_right, exists_or, exists_eq_left, decided,
      ← prior.values field value]
    cases outcome with
    | keep | clear => simp [ResolvedFields.record]
    | set mine =>
      simp only [ResolvedFields.record, ResolvedFields.insert, Except.ok.injEq, Outcome.set.injEq]
      by_cases same : field = pick.field
      · have unwritten := apart same.symm
        simp [unwritten, same.symm]
      · rw [if_neg same]
        simp [Ne.symm same]
  cleared field := by
    simp only [mem_append, mem_singleton, or_and_right, exists_or, exists_eq_left, decided,
      ← prior.cleared field]
    cases outcome with
    | keep => simp [ResolvedFields.record]
    | clear => simp [ResolvedFields.record, eq_comm]
    | set mine => simp [ResolvedFields.record, ResolvedFields.insert]

/-- The loop decides every field, or fails at a pick that has no outcome. -/
theorem foldlM_resolvePick (whole : TakesWhole existing strategy) {rest : List FieldPick}
    (prior : Resolves candidates picks resolved)
    (distinct : ((picks ++ rest).map FieldPick.field).Nodup)
    (unlocked : ∀ pick ∈ rest, pick.field ∉ locked) :
    (∀ result, rest.foldlM (resolvePick candidates existing locked strategy) resolved = .ok result →
      Resolves candidates (picks ++ rest) result) ∧
    ((∃ result,
      rest.foldlM (resolvePick candidates existing locked strategy) resolved = .ok result) ↔
      ∀ pick ∈ rest, ∃ outcome, pickOutcome candidates pick = .ok outcome) := by
  induction rest generalizing picks resolved with
  | nil =>
    refine ⟨fun result done => ?_, by simp [pure, Except.pure]⟩
    cases done
    rwa [append_nil]
  | cons pick rest ih =>
    rw [foldlM_cons, resolvePick_eq whole (unlocked pick mem_cons_self)]
    cases decided : pickOutcome candidates pick with
    | error error => simp [Except.map, bind, Except.bind, decided]
    | ok outcome =>
      have fresh : pick.field ∉ picks.map FieldPick.field := by
        intro taken
        rw [map_append, nodup_append] at distinct
        exact distinct.2.2 _ taken _ mem_cons_self rfl
      rw [append_cons] at distinct ⊢
      have step := ih (prior.concat fresh decided) distinct
        (forall_mem_cons.1 unlocked).2
      simpa [Except.map, bind, Except.bind, decided] using step

/-- Resolving picks: the picks are valid, the candidates describe the item, and every pick has an
outcome. -/
theorem resolvePicksForContext_ok (whole : TakesWhole existing strategy)
    (unlocked : ∀ pick ∈ picks, pick.field ∉ locked)
    (done : resolvePicksForContext picks candidates existing locked strategy item digest =
      .ok resolved) : Resolves candidates picks resolved := by
  simp only [resolvePicksForContext, bind_eq_ok] at done
  obtain ⟨_, valid, _, -, folded⟩ := done
  have distinct := (validatePicks_ok.1 valid).distinct
  exact (foldlM_resolvePick whole Resolves.nil distinct unlocked).1 resolved folded

theorem exists_resolvePicksForContext (whole : TakesWhole existing strategy)
    (unlocked : ∀ pick ∈ picks, pick.field ∉ locked) :
    (∃ resolved, resolvePicksForContext picks candidates existing locked strategy item digest =
      .ok resolved) ↔ ValidPicks picks ∧ checkContext candidates item digest = .ok () ∧
        ∀ pick ∈ picks, ∃ outcome, pickOutcome candidates pick = .ok outcome := by
  simp only [resolvePicksForContext, bind_eq_ok]
  constructor
  · rintro ⟨resolved, _, valid, _, checked, folded⟩
    have distinct := (validatePicks_ok.1 valid).distinct
    exact ⟨validatePicks_ok.1 valid, checked,
      (foldlM_resolvePick whole Resolves.nil distinct unlocked).2.1 ⟨resolved, folded⟩⟩
  rintro ⟨valid, checked, decided⟩
  have done : ∃ resolved, picks.foldlM (resolvePick candidates existing locked strategy)
      ⟨fun _ => none, []⟩ = .ok resolved :=
    (foldlM_resolvePick whole Resolves.nil valid.distinct unlocked).2.2 decided
  obtain ⟨resolved, folded⟩ := done
  exact ⟨resolved, (), validatePicks_ok.2 valid, (), checked, folded⟩

section Unlinked

theorem resolveUnlinked_ok
    (done : resolvePicksForContext picks candidates none [] strategy item digest = .ok resolved) :
    Resolves candidates picks resolved :=
  resolvePicksForContext_ok (.inl rfl) (fun _ _ => not_mem_nil) done

theorem exists_resolveUnlinked :
    (∃ resolved, resolvePicksForContext picks candidates none [] strategy item digest =
      .ok resolved) ↔
      ValidPicks picks ∧ checkContext candidates item digest = .ok () ∧
        ∀ pick ∈ picks, ∃ outcome, pickOutcome candidates pick = .ok outcome :=
  exists_resolvePicksForContext (.inl rfl) fun _ _ => not_mem_nil

end Unlinked

end Outcomes

end Coppice.Ingest
