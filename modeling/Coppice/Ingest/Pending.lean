import Coppice.Ingest.Item
import Coppice.Ingest.Metadata
import Coppice.Std.Table

/-!
# Pending metadata

Picks for an item without a book are resolved at once and kept in the item's pending map; at
approval the map is read back as picks. Approving with the picks themselves takes the short way.
Whether both ways come to the same is a question of what the map can say about a field.
-/

namespace Coppice.Ingest

open Coppice.Std List

section Model

/-- The pick a stored field stands for: `null` clears. -/
def pendingPick (field : MetadataField) (value : Json) : FieldPick :=
  if value.isNull then .clear field else .manual field value

/-- Explicit picks win; every pending field not named by a pick becomes a pick. -/
def mergePendingFields (picks : List FieldPick) (pending : Option Json) : List FieldPick :=
  match pending with
  | some (.obj members) =>
    picks ++ members.filterMap fun member =>
      (MetadataField.ofName member.1).bind fun field =>
        if field ∈ picks.map FieldPick.field then none else some (pendingPick field member.2)
  | _ => picks

/-- The resolved values as they are serialized, in the order of the fields. -/
def ResolvedFields.serialized (resolved : ResolvedFields) : List (String × Json) :=
  MetadataField.all.filterMap fun field => (resolved.values field).map fun value =>
    (field.name, value)

/-- Why a metadata mutation is refused. -/
inductive MutationError where
  | apply (error : ApplyError)
  | other (message : String)
deriving DecidableEq, Repr

/-- The map after a recipe: its values are put in, its cleared fields are taken out. -/
def persistPendingFields (item : DropItem) (resolved : ResolvedFields) :
    Except MutationError DropItem :=
  match item.pendingFields.getD (.obj []) with
  | .obj members =>
    let extended := resolved.serialized.foldl (upsert Prod.fst) members
    let names := resolved.cleared.map MetadataField.name
    .ok { item with
      pendingFields := some (.obj (extended.filter fun member => member.1 ∉ names))
      revision := nextRevision item.revision }
  | _ => .error (.other "pending fields are not a JSON object")

/-- `apply_ingest_metadata` on the item; the values for an item with a book go to the book. -/
def applyIngestMetadata (item : DropItem) (candidates : List Candidate)
    (existing : Option MediaMetadata) (picks : List FieldPick) (strategy : MergeStrategy) :
    Except MutationError DropItem := do
  let resolved ← (resolvePicksForContext picks candidates existing [] strategy (some item.id)
    (some item.sourceSha256)).mapError .apply
  match item.mediaId with
  | some _ => .ok item
  | none => persistPendingFields item resolved

/-- The fields an approval writes. -/
def approvedFields (item : DropItem) (candidates : List Candidate) (picks : List FieldPick) :
    Except ApplyError ResolvedFields := do
  let merged := mergePendingFields picks item.pendingFields
  validatePicks merged
  resolvePicksForContext merged candidates none [] .fillGaps (some item.id) (some item.sourceSha256)

/-- Picks applied first, and an approval without picks after. -/
def approvedAfterApplying (item : DropItem) (candidates : List Candidate) (picks : List FieldPick)
    (strategy : MergeStrategy) : Except MutationError ResolvedFields := do
  let staged ← applyIngestMetadata item candidates none picks strategy
  (approvedFields staged candidates []).mapError .apply

end Model

section Maps

/-- The members of a pending map. -/
def pendingMembers : Option Json → List (String × Json)
  | some (.obj members) => members
  | _ => []

/-- A pending column that holds a map, or nothing yet. -/
structure PendingMap (pending : Option Json) : Prop where
  object : pending = none ∨ ∃ members, pending = some (.obj members)
  distinct : ((pendingMembers pending).map Prod.fst).Nodup

theorem field_pendingPick (field : MetadataField) (value : Json) :
    (pendingPick field value).field = field := by
  unfold pendingPick
  split <;> rfl

/-- The pick a map makes of a member. -/
theorem mem_mergePendingFields {picks : List FieldPick} {pending : Option Json} {pick : FieldPick} :
    pick ∈ mergePendingFields picks pending ↔ pick ∈ picks ∨ ∃ field value,
      (field.name, value) ∈ pendingMembers pending ∧ field ∉ picks.map FieldPick.field ∧
        pick = pendingPick field value := by
  have plain : pendingMembers pending = [] → mergePendingFields picks pending = picks →
      (pick ∈ mergePendingFields picks pending ↔ pick ∈ picks ∨ ∃ field value,
        (field.name, value) ∈ pendingMembers pending ∧ field ∉ picks.map FieldPick.field ∧
          pick = pendingPick field value) := by
    intro none same
    rw [same, none]
    simp
  match pending with
  | none => exact plain rfl rfl
  | some .null | some (.bool _) | some (.int _) | some (.float _) | some (.str _) | some (.arr _) =>
    exact plain rfl rfl
  | some (.obj members) =>
    simp only [mergePendingFields, pendingMembers, mem_append, mem_filterMap,
      Option.bind_eq_some_iff, MetadataField.ofName_eq_some, Option.ite_none_left_eq_some,
      Option.some.injEq]
    refine or_congr_right ⟨?_, ?_⟩
    · rintro ⟨⟨key, value⟩, member, field, rfl, fresh, rfl⟩
      exact ⟨field, value, member, fresh, rfl⟩
    · rintro ⟨field, value, member, fresh, rfl⟩
      exact ⟨(field.name, value), member, field, rfl, fresh, rfl⟩

variable {resolved : ResolvedFields} {value : Json}

theorem mem_serialized {key : String} :
    (key, value) ∈ resolved.serialized ↔
      ∃ field, key = field.name ∧ resolved.values field = some value := by
  simp only [ResolvedFields.serialized, mem_filterMap, Option.map_eq_some_iff, Prod.mk.injEq]
  constructor
  · rintro ⟨field, -, value, written, rfl, rfl⟩
    exact ⟨field, rfl, written⟩
  · rintro ⟨field, rfl, written⟩
    exact ⟨field, MetadataField.mem_all field, value, written, rfl, rfl⟩

theorem name_mem_serialized {field : MetadataField} :
    (field.name, value) ∈ resolved.serialized ↔ resolved.values field = some value := by
  rw [mem_serialized]
  constructor
  · rintro ⟨other, same, written⟩
    rwa [MetadataField.name_injective same]
  · exact fun written => ⟨field, rfl, written⟩

/-- The map a recipe leaves: its values, and the members of the fields it does not write, both
without the fields it clears. -/
theorem persistPendingFields_ok {item : DropItem} (stored : PendingMap item.pendingFields)
    (resolved : ResolvedFields) :
    ∃ members, persistPendingFields item resolved = .ok { item with
        pendingFields := some (.obj members), revision := nextRevision item.revision } ∧
      (members.map Prod.fst).Nodup ∧ ∀ field value, (field.name, value) ∈ members ↔
        field ∉ resolved.cleared ∧ (resolved.values field = some value ∨
          (field.name, value) ∈ pendingMembers item.pendingFields ∧
            resolved.values field = none) := by
  have held : item.pendingFields.getD (.obj []) = .obj (pendingMembers item.pendingFields) := by
    rcases stored.object with none | ⟨members, some⟩
    · rw [none]
      rfl
    · rw [some]
      rfl
  simp only [persistPendingFields, held]
  have distinct := foldlRecOn (motive := fun rows => (rows.map Prod.fst).Nodup)
    resolved.serialized (upsert Prod.fst) stored.distinct fun _ distinct _ _ =>
      nodup_upsert distinct
  refine ⟨_, rfl, distinct.sublist (filter_sublist.map _), ?_⟩
  intro field value
  have named : field.name ∈ resolved.cleared.map MetadataField.name ↔ field ∈ resolved.cleared :=
    mem_map_of_injective MetadataField.name_injective
  rw [mem_filter, decide_eq_true_eq, named, and_comm]
  refine and_congr_right fun _ => ⟨fun member => ?_, ?_⟩
  · rcases mem_foldl_upsert member with written | ⟨kept, apart⟩
    · exact .inl (name_mem_serialized.1 written)
    refine .inr ⟨kept, ?_⟩
    cases written : resolved.values field with
    | none => rfl
    | some new =>
      have listed : (field.name, new) ∈ resolved.serialized := name_mem_serialized.2 written
      exact absurd rfl (apart (field.name, new) listed)
  · rintro (written | ⟨kept, unwritten⟩)
    · obtain ⟨⟨key, other⟩, member, same, mine⟩ := foldl_upsert_names Prod.fst
        (pendingMembers item.pendingFields) (name_mem_serialized.2 written)
      subst same
      rw [name_mem_serialized, written, Option.some.injEq] at mine
      rwa [mine]
    · refine foldl_upsert_keeps kept ?_
      rintro ⟨key, other⟩ new same
      subst same
      rw [name_mem_serialized, unwritten] at new
      cases new

end Maps

section Approval

variable {item staged : DropItem} {candidates : List Candidate} {picks : List FieldPick}
  {strategy : MergeStrategy} {field : MetadataField} {approved : ResolvedFields} {outcome : Outcome}

/-- A stored field an approval can take as a pick. -/
def SoundField (field : MetadataField) (value : Json) : Prop :=
  field ∈ storableFields ∧ (value.isNull = true ∨ hasType field value = true)

theorem validatePick_pendingPick :
    validatePick (pendingPick field value) = .ok () ↔
      value.isNull = true ∨ hasType field value = true := by
  unfold pendingPick
  split
  · rename_i null
    simp [validatePick, null]
  · rename_i real
    simp [validatePick_manual, real]

theorem pickOutcome_pendingPick (field : MetadataField) (value : Json) :
    pickOutcome candidates (pendingPick field value) =
      .ok (if value.isNull then .clear else .set value) := by
  unfold pendingPick
  split <;> rfl

theorem nodup_mergePendingFields (stored : PendingMap item.pendingFields)
    (distinct : (picks.map FieldPick.field).Nodup) :
    ((mergePendingFields picks item.pendingFields).map FieldPick.field).Nodup := by
  rcases stored.object with none | ⟨members, some⟩
  · rw [none]
    exact distinct
  have keys := stored.distinct
  rw [some] at keys ⊢
  rw [mergePendingFields, map_append, nodup_append]
  refine ⟨distinct, ?_, ?_⟩
  · rw [List.Nodup, pairwise_map]
    refine ((pairwise_map.1 keys).filterMap _ ?_)
    intro first second apart left leftFound right rightFound same
    simp only [Option.bind_eq_some_iff, MetadataField.ofName_eq_some, Option.ite_none_left_eq_some,
      Option.some.injEq] at leftFound rightFound
    obtain ⟨field, firstKey, -, rfl⟩ := leftFound
    obtain ⟨other, secondKey, -, rfl⟩ := rightFound
    rw [field_pendingPick, field_pendingPick] at same
    exact apart (by rw [firstKey, secondKey, same])
  · rintro field mine other theirs rfl
    obtain ⟨pick, found, rfl⟩ := mem_map.1 theirs
    obtain ⟨member, -, read⟩ := mem_filterMap.1 found
    simp only [Option.bind_eq_some_iff, Option.ite_none_left_eq_some, Option.some.injEq] at read
    obtain ⟨field, -, fresh, rfl⟩ := read
    rw [field_pendingPick] at mine
    exact fresh mine

theorem validPicks_mergePendingFields (stored : PendingMap item.pendingFields) :
    ValidPicks (mergePendingFields picks item.pendingFields) ↔ ValidPicks picks ∧
      ∀ field value, (field.name, value) ∈ pendingMembers item.pendingFields →
        field ∉ picks.map FieldPick.field → SoundField field value := by
  have own : ∀ pick ∈ picks, pick ∈ mergePendingFields picks item.pendingFields :=
    fun pick member => mem_mergePendingFields.2 (.inl member)
  constructor
  · intro valid
    refine ⟨⟨fun pick member => valid.storable pick (own pick member), ?_,
      fun pick member => valid.each pick (own pick member)⟩, fun field value member fresh => ?_⟩
    · refine valid.distinct.sublist (List.Sublist.map _ ?_)
      unfold mergePendingFields
      split
      · exact sublist_append_left _ _
      · exact List.Sublist.refl _
    · have merged : pendingPick field value ∈ mergePendingFields picks item.pendingFields :=
        mem_mergePendingFields.2 (.inr ⟨field, value, member, fresh, rfl⟩)
      have storable := valid.storable _ merged
      rw [field_pendingPick] at storable
      exact ⟨storable, validatePick_pendingPick.1 (valid.each _ merged)⟩
  · rintro ⟨valid, sound⟩
    refine ⟨fun pick member => ?_, nodup_mergePendingFields stored valid.distinct,
      fun pick member => ?_⟩
    · rcases mem_mergePendingFields.1 member with mine | ⟨field, value, kept, fresh, rfl⟩
      · exact valid.storable pick mine
      · rw [field_pendingPick]
        exact (sound field value kept fresh).1
    · rcases mem_mergePendingFields.1 member with mine | ⟨field, value, kept, fresh, rfl⟩
      · exact valid.each pick mine
      · exact validatePick_pendingPick.2 (sound field value kept fresh).2

theorem approvedFields_eq (item : DropItem) (candidates : List Candidate) (picks : List FieldPick) :
    approvedFields item candidates picks =
      resolvePicksForContext (mergePendingFields picks item.pendingFields) candidates none []
        .fillGaps (some item.id) (some item.sourceSha256) := by
  dsimp only [approvedFields, resolvePicksForContext]
  cases validatePicks (mergePendingFields picks item.pendingFields) <;> rfl

/-- Picks that are accepted on their own: well-formed, with candidates made for the item, of
which each supplies the field it is picked for. -/
structure Accepted (item : DropItem) (candidates : List Candidate) (picks : List FieldPick) :
    Prop where
  valid : ValidPicks picks
  checked : checkContext candidates (some item.id) (some item.sourceSha256) = .ok ()
  decided : ∀ pick ∈ picks, ∃ outcome, pickOutcome candidates pick = .ok outcome

/-- The picks are accepted, and the pending fields no pick names are sound. -/
def Approvable (item : DropItem) (candidates : List Candidate) (picks : List FieldPick) : Prop :=
  Accepted item candidates picks ∧
    ∀ field value, (field.name, value) ∈ pendingMembers item.pendingFields →
      field ∉ picks.map FieldPick.field → SoundField field value

theorem exists_approvedFields (stored : PendingMap item.pendingFields) :
    (∃ resolved, approvedFields item candidates picks = .ok resolved) ↔
      Approvable item candidates picks := by
  rw [approvedFields_eq, exists_resolveUnlinked, validPicks_mergePendingFields stored]
  constructor
  · rintro ⟨⟨valid, sound⟩, checked, decided⟩
    exact ⟨⟨valid, checked, fun pick member =>
      decided pick (mem_mergePendingFields.2 (.inl member))⟩,
      sound⟩
  rintro ⟨⟨valid, checked, decided⟩, sound⟩
  refine ⟨⟨valid, sound⟩, checked, fun pick member => ?_⟩
  rcases mem_mergePendingFields.1 member with mine | ⟨field, value, -, -, rfl⟩
  · exact decided pick mine
  · exact ⟨_, pickOutcome_pendingPick field value⟩

/-- What the merged picks decide: what the picks do, and a pending field no pick names. -/
theorem decided_mergePendingFields :
    (∃ pick ∈ mergePendingFields picks item.pendingFields, pick.field = field ∧
      pickOutcome candidates pick = .ok outcome) ↔
    (∃ pick ∈ picks, pick.field = field ∧ pickOutcome candidates pick = .ok outcome) ∨
      ∃ value, (field.name, value) ∈ pendingMembers item.pendingFields ∧
        field ∉ picks.map FieldPick.field ∧
          (if value.isNull then .clear else .set value) = outcome := by
  constructor
  · rintro ⟨pick, member, rfl, decided⟩
    rcases mem_mergePendingFields.1 member with mine | ⟨other, stored, kept, fresh, rfl⟩
    · exact .inl ⟨pick, mine, rfl, decided⟩
    · rw [pickOutcome_pendingPick, Except.ok.injEq] at decided
      rw [field_pendingPick]
      exact .inr ⟨stored, kept, fresh, decided⟩
  · rintro (⟨pick, mine, rfl, decided⟩ | ⟨value, kept, fresh, rfl⟩)
    · exact ⟨pick, mem_mergePendingFields.2 (.inl mine), rfl, decided⟩
    · exact ⟨pendingPick field value,
        mem_mergePendingFields.2 (.inr ⟨field, value, kept, fresh, rfl⟩),
        field_pendingPick field value, pickOutcome_pendingPick ..⟩

/-- What a direct approval writes and clears: what the picks say, and the pending fields no pick
names. -/
theorem approvedFields_spec (recipe : Resolves candidates picks resolved)
    (done : approvedFields item candidates picks = .ok approved) (field : MetadataField) :
    (∀ value, approved.values field = some value ↔ resolved.values field = some value ∨
      (field.name, value) ∈ pendingMembers item.pendingFields ∧
        field ∉ picks.map FieldPick.field ∧ value.isNull = false) ∧
    (field ∈ approved.cleared ↔ field ∈ resolved.cleared ∨ ∃ value,
      (field.name, value) ∈ pendingMembers item.pendingFields ∧
        field ∉ picks.map FieldPick.field ∧ value.isNull = true) := by
  rw [approvedFields_eq] at done
  have merged := resolveUnlinked_ok done
  refine ⟨fun value => ?_, ?_⟩
  · rw [merged.values, recipe.values, decided_mergePendingFields]
    refine or_congr_right ⟨?_, fun ⟨kept, fresh, real⟩ => ⟨value, kept, fresh, by rw [real]; rfl⟩⟩
    rintro ⟨stored, kept, fresh, decided⟩
    split at decided <;> cases decided
    rename_i real
    exact ⟨kept, fresh, Bool.eq_false_iff.2 real⟩
  · rw [merged.cleared, recipe.cleared, decided_mergePendingFields]
    simp

/-- A value a recipe writes is sound. -/
theorem soundField_of_resolves (recipe : Resolves candidates picks resolved)
    (valid : ValidPicks picks) (written : resolved.values field = some value) :
    field ∈ storableFields ∧ hasType field value = true := by
  obtain ⟨pick, member, rfl, decided⟩ := (recipe.values _ _).1 written
  refine ⟨valid.storable pick member, ?_⟩
  cases pick with
  | keepExisting field | clear field => cases decided
  | manual field manual =>
    cases decided
    exact validatePick_manual.1 (valid.each _ member)
  | candidate field candidateId =>
    cases supplied : candidateValue candidates field candidateId with
    | error error =>
      rw [pickOutcome, supplied] at decided
      cases decided
    | ok found =>
      rw [pickOutcome, supplied] at decided
      cases decided
      unfold candidateValue at supplied
      split at supplied
      · cases supplied
      split at supplied
      · cases supplied
      split at supplied
      · cases supplied
      · obtain ⟨_, typed, same⟩ := bind_eq_ok.1 supplied
        cases same
        exact validateValue_ok.1 typed

/-- Two answers to the same question: both fail, or both write and clear the same fields. -/
def SameFields : Except MutationError ResolvedFields → Except ApplyError ResolvedFields → Prop
  | .ok left, .ok right =>
    left.values = right.values ∧ ∀ field, field ∈ left.cleared ↔ field ∈ right.cleared
  | .error _, .error _ => True
  | _, _ => False

/-- What a pending map can say: it has no way to say that a field is to be cleared or kept. -/
def Storable (item : DropItem) (picks : List FieldPick) : Prop :=
  ∀ pick ∈ picks, (∀ field, pick ≠ .clear field) ∧
    ∀ field, pick = .keepExisting field →
      field.name ∉ (pendingMembers item.pendingFields).map Prod.fst

/-- What applying a recipe to an item without a book leaves on the item. -/
structure AppliedTo (item : DropItem) (resolved : ResolvedFields) (staged : DropItem) : Prop where
  id : staged.id = item.id
  digest : staged.sourceSha256 = item.sourceSha256
  map : PendingMap staged.pendingFields
  members : ∀ field value, (field.name, value) ∈ pendingMembers staged.pendingFields ↔
    field ∉ resolved.cleared ∧ (resolved.values field = some value ∨
      (field.name, value) ∈ pendingMembers item.pendingFields ∧ resolved.values field = none)

theorem applyIngestMetadata_cases (unlinked : item.mediaId = none)
    (stored : PendingMap item.pendingFields) :
    (∃ error, applyIngestMetadata item candidates none picks strategy = .error error ∧
      ¬Accepted item candidates picks) ∨
    ∃ resolved staged, applyIngestMetadata item candidates none picks strategy = .ok staged ∧
      Accepted item candidates picks ∧ Resolves candidates picks resolved ∧
        AppliedTo item resolved staged := by
  cases recipe : resolvePicksForContext picks candidates none [] strategy (some item.id)
      (some item.sourceSha256) with
  | error error =>
    refine .inl ⟨.apply error, by simp only [applyIngestMetadata, recipe]; rfl, fun accepted => ?_⟩
    obtain ⟨resolved, done⟩ :=
      exists_resolveUnlinked.2 ⟨accepted.valid, accepted.checked, accepted.decided⟩
    rw [recipe] at done
    cases done
  | ok resolved =>
    obtain ⟨valid, checked, decided⟩ := exists_resolveUnlinked.1 ⟨resolved, recipe⟩
    obtain ⟨members, persisted, distinct, members_iff⟩ := persistPendingFields_ok stored resolved
    have applied : applyIngestMetadata item candidates none picks strategy =
        .ok { item with
          pendingFields := some (.obj members), revision := nextRevision item.revision } := by
      rw [applyIngestMetadata, recipe]
      split
      · rename_i linked
        rw [unlinked] at linked
        cases linked
      · exact persisted
    exact .inr ⟨resolved, _, applied, ⟨valid, checked, decided⟩,
      resolveUnlinked_ok recipe, rfl, rfl, ⟨.inr ⟨members, rfl⟩, distinct⟩, members_iff⟩

/-- What an approval without picks makes of an item that carries an applied recipe. -/
theorem approved_of_applied (applied : AppliedTo item resolved staged)
    (done : approvedFields staged candidates [] = .ok approved) (field : MetadataField) :
    (∀ value, approved.values field = some value ↔ field ∉ resolved.cleared ∧
      (resolved.values field = some value ∨
        (field.name, value) ∈ pendingMembers item.pendingFields ∧
        resolved.values field = none) ∧ value.isNull = false) ∧
    (field ∈ approved.cleared ↔ ∃ value, field ∉ resolved.cleared ∧
      (resolved.values field = some value ∨
        (field.name, value) ∈ pendingMembers item.pendingFields ∧
        resolved.values field = none) ∧ value.isNull = true) := by
  have spec := approvedFields_spec Resolves.nil done field
  simpa [applied.members, and_assoc] using spec

/-- An item that carries an applied recipe can be approved if its whole map is sound. -/
theorem exists_approved_of_applied (accepted : Accepted item candidates picks)
    (after : AppliedTo item resolved staged) :
    (∃ approved, approvedFields staged candidates [] = .ok approved) ↔ ∀ field value,
      (field.name, value) ∈ pendingMembers staged.pendingFields → SoundField field value := by
  have empty : Accepted staged candidates [] :=
    ⟨⟨by simp, by simp, by simp⟩, by rw [after.id, after.digest]; exact accepted.checked, by simp⟩
  rw [exists_approvedFields after.map]
  simp [Approvable, empty]

section Recipe

variable (recipe : Resolves candidates picks resolved)
include recipe

/-- A field no pick names is neither written nor cleared by the recipe. -/
theorem Resolves.untouched (fresh : field ∉ picks.map FieldPick.field) :
    resolved.values field = none ∧ field ∉ resolved.cleared := by
  constructor
  · cases written : resolved.values field with
    | none => rfl
    | some value =>
      obtain ⟨pick, member, rfl, -⟩ := (recipe.values _ _).1 written
      exact absurd (mem_map.2 ⟨pick, member, rfl⟩) fresh
  · intro cleared
    obtain ⟨pick, member, rfl, -⟩ := (recipe.cleared _).1 cleared
    exact fresh (mem_map.2 ⟨pick, member, rfl⟩)

/-- Whether a recipe's field is decided by the recipe or left to the map. -/
theorem resolved_of_storable
    (decided : ∀ pick ∈ picks, ∃ outcome, pickOutcome candidates pick = .ok outcome)
    (storable : Storable item picks) (field : MetadataField) :
    field ∉ resolved.cleared ∧ ∀ value, (field.name, value) ∈ pendingMembers item.pendingFields →
      (resolved.values field = none ↔ field ∉ picks.map FieldPick.field) := by
  constructor
  · intro cleared
    obtain ⟨pick, member, -, outcome⟩ := (recipe.cleared field).1 cleared
    cases pick with
    | clear other => exact (storable _ member).1 other rfl
    | keepExisting other | manual other value => cases outcome
    | candidate other candidateId =>
      rw [pickOutcome] at outcome
      cases supplied : candidateValue candidates other candidateId <;> rw [supplied] at outcome <;>
        cases outcome
  · intro value kept
    constructor
    · intro unwritten picked
      obtain ⟨pick, member, rfl⟩ := mem_map.1 picked
      obtain ⟨outcome, found⟩ := decided pick member
      have written : ∀ value, outcome ≠ .set value := by
        rintro value rfl
        have := (recipe.values pick.field value).2 ⟨pick, member, rfl, found⟩
        rw [unwritten] at this
        cases this
      cases pick with
      | clear other => exact (storable _ member).1 other rfl
      | keepExisting other =>
        exact (storable _ member).2 other rfl (mem_map.2 ⟨_, kept, rfl⟩)
      | manual other value =>
        cases found
        exact written value rfl
      | candidate other candidateId =>
        rw [pickOutcome] at found
        cases supplied : candidateValue candidates other candidateId with
        | error error =>
          rw [supplied] at found
          cases found
        | ok value =>
          rw [supplied] at found
          cases found
          exact written value rfl
    · exact fun fresh => (recipe.untouched fresh).1

variable (valid : ValidPicks picks)
include valid

/-- A pick decides its field alone. -/
theorem Resolves.at_pick {pick : FieldPick} (member : pick ∈ picks)
    (decided : pickOutcome candidates pick = .ok outcome) :
    (∀ value, resolved.values pick.field = some value ↔ outcome = .set value) ∧
      (pick.field ∈ resolved.cleared ↔ outcome = .clear) := by
  have alone : ∀ other ∈ picks, other.field = pick.field → other = pick := fun other theirs same =>
    inj_on_of_nodup_map valid.distinct theirs member same
  have decides (wanted : Outcome) : (∃ other ∈ picks, other.field = pick.field ∧
      pickOutcome candidates other = .ok wanted) ↔ outcome = wanted := by
    constructor
    · rintro ⟨other, theirs, same, found⟩
      rw [alone other theirs same, decided] at found
      exact Except.ok.inj found
    · rintro rfl
      exact ⟨pick, member, rfl, decided⟩
  exact ⟨fun value => (recipe.values _ _).trans (decides _), (recipe.cleared _).trans (decides _)⟩

variable (after : AppliedTo item resolved staged)
  (direct : approvedFields item candidates picks = .ok approved)
include after direct

/-- If the map can say what the picks say, approving later writes and clears the same. -/
theorem same_of_storable (accepted : Accepted item candidates picks)
    (stored : PendingMap item.pendingFields) (storable : Storable item picks) :
    ∃ late, approvedFields staged candidates [] = .ok late ∧ late.values = approved.values ∧
      ∀ field, field ∈ late.cleared ↔ field ∈ approved.cleared := by
  have left := resolved_of_storable recipe accepted.decided storable
  have sound := ((exists_approvedFields stored).1 ⟨approved, direct⟩).2
  obtain ⟨late, done⟩ := (exists_approved_of_applied accepted after).2 fun field value member => by
    obtain ⟨-, written | ⟨kept, unwritten⟩⟩ := (after.members field value).1 member
    · obtain ⟨storable, typed⟩ := soundField_of_resolves recipe valid written
      exact ⟨storable, .inr typed⟩
    · exact sound field value kept (((left field).2 value kept).1 unwritten)
  refine ⟨late, done, funext fun field => Option.ext fun value => ?_, fun field => ?_⟩
  · rw [(approved_of_applied after done field).1, (approvedFields_spec recipe direct field).1]
    constructor
    · rintro ⟨-, written | ⟨kept, unwritten⟩, real⟩
      · exact .inl written
      · exact .inr ⟨kept, ((left field).2 value kept).1 unwritten, real⟩
    rintro (written | ⟨kept, fresh, real⟩)
    · have typed := (soundField_of_resolves recipe valid written).2
      exact ⟨(left field).1, .inl written, isNull_of_hasType typed⟩
    · exact ⟨(left field).1, .inr ⟨kept, ((left field).2 value kept).2 fresh⟩, real⟩
  · rw [(approved_of_applied after done field).2, (approvedFields_spec recipe direct field).2]
    constructor
    · rintro ⟨value, -, written | ⟨kept, unwritten⟩, null⟩
      · have typed := (soundField_of_resolves recipe valid written).2
        rw [isNull_of_hasType typed] at null
        cases null
      · exact .inr ⟨value, kept, ((left field).2 value kept).1 unwritten, null⟩
    · rintro (cleared | ⟨value, kept, fresh, null⟩)
      · exact absurd cleared (left field).1
      · exact ⟨value, (left field).1, .inr ⟨kept, ((left field).2 value kept).2 fresh⟩, null⟩

/-- If approving later writes and clears the same, the map could say what the picks say. -/
theorem storable_of_same {late : ResolvedFields}
    (done : approvedFields staged candidates [] = .ok late) (values : late.values = approved.values)
    (cleared : ∀ field, field ∈ late.cleared ↔ field ∈ approved.cleared) : Storable item picks := by
  intro pick member
  constructor
  · rintro field rfl
    have taken := (recipe.at_pick valid member rfl).2.2 rfl
    have both : field ∈ late.cleared :=
      (cleared field).2 ((approvedFields_spec recipe direct field).2.2 (.inl taken))
    obtain ⟨_, untaken, -⟩ := (approved_of_applied after done field).2.1 both
    exact untaken taken
  · rintro field rfl named
    obtain ⟨⟨key, value⟩, kept, rfl⟩ := mem_map.1 named
    have own := recipe.at_pick valid member rfl
    have unwritten : resolved.values field = none := by
      cases written : resolved.values field with
      | none => rfl
      | some value => cases (own.1 value).1 written
    have uncleared : field ∉ resolved.cleared := fun taken => by cases own.2.1 taken
    have picked : field ∈ picks.map FieldPick.field := mem_map.2 ⟨_, member, rfl⟩
    cases null : value.isNull with
    | true =>
      have taken := (approved_of_applied after done field).2.2
        ⟨value, uncleared, .inr ⟨kept, unwritten⟩, null⟩
      rcases (approvedFields_spec recipe direct field).2.1 ((cleared field).1 taken) with
        taken | ⟨_, -, fresh, -⟩
      · exact uncleared taken
      · exact fresh picked
    | false =>
      have written := ((approved_of_applied after done field).1 value).2
        ⟨uncleared, .inr ⟨kept, unwritten⟩, null⟩
      rw [values] at written
      rcases ((approvedFields_spec recipe direct field).1 value).1 written with mine | ⟨-, fresh, -⟩
      · rw [unwritten] at mine
        cases mine
      · exact fresh picked

end Recipe

section Override

variable {pick : FieldPick} (member : pick ∈ picks)
  (decided : pickOutcome candidates pick = .ok outcome)
include member decided

/-- A direct approval does to the field of a pick what the pick says, whatever is pending. -/
theorem approved_at_pick (accepted : Accepted item candidates picks)
    (direct : approvedFields item candidates picks = .ok approved) :
    (∀ value, approved.values pick.field = some value ↔ outcome = .set value) ∧
      (pick.field ∈ approved.cleared ↔ outcome = .clear) := by
  obtain ⟨resolved, resolves⟩ : ∃ resolved, resolvePicksForContext picks candidates none []
      .fillGaps (some item.id) (some item.sourceSha256) = .ok resolved :=
    exists_resolveUnlinked.2 ⟨accepted.valid, accepted.checked, accepted.decided⟩
  have recipe := resolveUnlinked_ok resolves
  have own := recipe.at_pick accepted.valid member decided
  have picked : pick.field ∈ picks.map FieldPick.field := mem_map.2 ⟨pick, member, rfl⟩
  have spec := approvedFields_spec recipe direct pick.field
  simp only [picked, not_true_eq_false, false_and, and_false, exists_false, or_false] at spec
  exact ⟨fun value => (spec.1 value).trans (own.1 value), spec.2.trans own.2⟩

/-- A value picked beforehand takes the place of the one that was pending. -/
theorem approved_at_applied (accepted : Accepted item candidates picks)
    (recipe : Resolves candidates picks resolved) (after : AppliedTo item resolved staged)
    (done : approvedFields staged candidates [] = .ok approved) (sets : outcome = .set value) :
    approved.values pick.field = some value := by
  have own := recipe.at_pick accepted.valid member decided
  have written := (own.1 value).2 sets
  have typed := (soundField_of_resolves recipe accepted.valid written).2
  refine ((approved_of_applied after done pick.field).1 value).2
    ⟨fun cleared => ?_, .inl written, isNull_of_hasType typed⟩
  have clears := own.2.1 cleared
  rw [sets] at clears
  cases clears

end Override

/-- Applying picks and approving later comes to what approving with the picks does, exactly if the
approval cannot go through or the pending map can say what every pick says: no pick clears a field,
and no pick keeps a field that has a pending value. Either way a picked value overrides a pending
one, and approving with the picks lets every pick decide its field. -/
theorem apply_then_approve_iff (unlinked : item.mediaId = none)
    (stored : PendingMap item.pendingFields) :
    (SameFields (approvedAfterApplying item candidates picks strategy)
        (approvedFields item candidates picks) ↔
      (Approvable item candidates picks → Storable item picks)) ∧
    ∀ pick ∈ picks, ∀ outcome, pickOutcome candidates pick = .ok outcome →
      (∀ approved, approvedFields item candidates picks = .ok approved →
        (∀ value, approved.values pick.field = some value ↔ outcome = .set value) ∧
          (pick.field ∈ approved.cleared ↔ outcome = .clear)) ∧
      ∀ approved, approvedAfterApplying item candidates picks strategy = .ok approved →
        ∀ value, outcome = .set value → approved.values pick.field = some value := by
  have directly : (∃ approved, approvedFields item candidates picks = .ok approved) ↔ _ :=
    exists_approvedFields stored
  have atPick (pick) (member : pick ∈ picks) (outcome)
      (decided : pickOutcome candidates pick = .ok outcome) (approved)
      (direct : approvedFields item candidates picks = .ok approved) :=
    approved_at_pick member decided (directly.1 ⟨approved, direct⟩).1 direct
  have applying :
    (∃ error, applyIngestMetadata item candidates none picks strategy = .error error ∧ _) ∨ _ :=
    applyIngestMetadata_cases unlinked stored
  rcases applying with ⟨error, refused, rejected⟩ |
      ⟨resolved, staged, applied, accepted, recipe, after⟩
  · have staging : approvedAfterApplying item candidates picks strategy = .error error := by
      rw [approvedAfterApplying, refused]
      rfl
    rw [staging]
    refine ⟨?_, fun pick member outcome decided => ⟨atPick pick member outcome decided, nofun⟩⟩
    cases direct : approvedFields item candidates picks with
    | ok approved => exact absurd (directly.1 ⟨approved, direct⟩).1 rejected
    | error reason => exact iff_of_true trivial fun able => absurd able.1 rejected
  · have staging : approvedAfterApplying item candidates picks strategy =
        (approvedFields staged candidates []).mapError .apply := by
      rw [approvedAfterApplying, applied]
      rfl
    rw [staging]
    refine ⟨?_, fun pick member outcome decided => ⟨atPick pick member outcome decided, ?_⟩⟩
    · cases direct : approvedFields item candidates picks with
      | error reason =>
        have unable : ¬Approvable item candidates picks := fun able => by
          obtain ⟨approved, found⟩ := directly.2 able
          rw [direct] at found
          cases found
        refine iff_of_true ?_ fun able => absurd able unable
        -- what is wrong with a pending field stays wrong in the map
        cases late : approvedFields staged candidates [] with
        | error later => trivial
        | ok late =>
          have sound := (exists_approved_of_applied accepted after).1 ⟨_, ‹_›⟩
          refine unable ⟨accepted, fun field value kept fresh => ?_⟩
          have untouched := recipe.untouched fresh
          exact sound field value ((after.members field value).2
            ⟨untouched.2, .inr ⟨kept, untouched.1⟩⟩)
      | ok approved =>
        constructor
        · intro same _
          cases done : approvedFields staged candidates [] with
          | error later =>
            rw [done] at same
            exact same.elim
          | ok late =>
            rw [done] at same
            exact storable_of_same recipe accepted.valid after direct done same.1 same.2
        · intro storable
          obtain ⟨late, done, values, cleared⟩ := same_of_storable recipe accepted.valid after
            direct accepted stored (storable (directly.1 ⟨approved, direct⟩))
          rw [done]
          exact ⟨values, cleared⟩
    · intro approved late value sets
      cases done : approvedFields staged candidates [] with
      | error error =>
        rw [done] at late
        cases late
      | ok found =>
        rw [done] at late
        cases late
        exact approved_at_applied member decided accepted recipe after done sets

/-- An item as an upload leaves it, with a pending title. -/
def titledItem : DropItem where
  id := "item"
  libraryId := "library"
  sourceFilename := "book.epub"
  byteSize := 1
  sourceSha256 := "00"
  stagingPath := ["staging", "library", "00-book.epub"]
  pendingFields := some (.obj [("TITLE", .str "Old")])

/-- A title picked by hand takes the place of the pending one, at once or later. -/
theorem apply_then_approve_iff_sample : titledItem.mediaId = none ∧
    PendingMap titledItem.pendingFields ∧
      SameFields (approvedAfterApplying titledItem [] [.manual .title (.str "New")] .fillGaps)
          (approvedFields titledItem [] [.manual .title (.str "New")]) ∧
      ∃ approved, approvedFields titledItem [] [.manual .title (.str "New")] = .ok approved ∧
        approved.values .title = some (.str "New") := by
  have map : PendingMap titledItem.pendingFields := ⟨.inr ⟨_, rfl⟩, by decide⟩
  obtain ⟨same, overrides⟩ :=
    @apply_then_approve_iff titledItem [] [.manual .title (.str "New")] .fillGaps rfl map
  refine ⟨rfl, map, same.mpr fun _ pick member => ?_, _, rfl, ?_⟩
  · obtain rfl := mem_singleton.mp member
    exact ⟨nofun, nofun⟩
  · exact (((overrides _ mem_cons_self _ rfl).1 _ rfl).1 (.str "New")).mpr rfl

/-- A title cleared beforehand is not cleared by the approval. -/
theorem cleared_pick_is_lost : titledItem.mediaId = none ∧ PendingMap titledItem.pendingFields ∧
    ¬SameFields (approvedAfterApplying titledItem [] [.clear .title] .fillGaps)
      (approvedFields titledItem [] [.clear .title]) := by
  refine ⟨rfl, ⟨.inr ⟨_, rfl⟩, by decide⟩, fun same => ?_⟩
  have cleared : MetadataField.title ∈ ([] : List MetadataField) ↔
      MetadataField.title ∈ [MetadataField.title] := same.2 .title
  simp at cleared

end Approval

end Coppice.Ingest
