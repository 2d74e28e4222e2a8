import Mathlib.Algebra.Order.BigOperators.Group.List
import Mathlib.Data.List.Pairwise
import Mathlib.Data.Rat.Floor
import Coppice.Models.ReadingState
import Coppice.Std.Text

/-!
# Positions between the editions of a work

A chapter map relates spine items of an ebook to chapters of an audiobook, and a
position converts by its fraction of the chapter, as in the second half of
`domain/reading_state.rs`. Numbers of the source's `f64` and `Decimal` are exact
rationals here. The way back looks the spine item up by the suffix of a path, so a
position comes back exactly when that lookup finds the item it started from.
-/

namespace Coppice.Models

open Coppice.Std List

/-- One linear spine item of an ebook edition. -/
structure SpineItem where
  index : Int
  href : String
  charCount : Int
deriving DecidableEq, Repr

/-- One chapter mark of an audio edition with its end resolved. -/
structure AudioChapterSpan where
  index : Int
  startMs : Int
  endMs : Int
deriving DecidableEq, Repr

def AudioChapterSpan.durationMs (chapter : AudioChapterSpan) : Int :=
  chapter.endMs - chapter.startMs

/-- One `media_chapter_map` entry: spine item and audio chapter. -/
structure ChapterMapping where
  ebookSpineIndex : Int
  audioChapterIndex : Int
  confidence : ℚ
deriving DecidableEq, Repr

/-- A position derived from the other edition of the same work. -/
structure MappedPosition where
  locator : Option ReadiumLocator
  positionMs : Option Int
  progression : ℚ
  confidence : ℚ
  approximate : Bool
deriving DecidableEq, Repr

/-- The chapter containing a position: the last span that starts at or before it. -/
def chapterAt (chapters : List AudioChapterSpan) (positionMs : Int) : Option AudioChapterSpan :=
  maxByKey AudioChapterSpan.startMs
    (chapters.filter fun chapter => 0 < chapter.durationMs ∧ chapter.startMs ≤ positionMs)

def mappedSpineIndex (mappings : List ChapterMapping) (audioChapterIndex : Int) :
    Option ChapterMapping :=
  lookup ChapterMapping.audioChapterIndex mappings audioChapterIndex

def mappedChapterIndex (mappings : List ChapterMapping) (ebookSpineIndex : Int) :
    Option ChapterMapping :=
  lookup ChapterMapping.ebookSpineIndex mappings ebookSpineIndex

/-- The characters of some spine items. -/
def spineChars (spine : List SpineItem) : Int :=
  (spine.map fun item => max item.charCount 0).sum

/-- Characters before `index` and the whole book's characters. -/
def spineOffsets (spine : List SpineItem) (index : Int) : Option (Int × Int) :=
  if spine.any (·.index = index) then
    some (spineChars (spine.takeWhile (·.index ≠ index)), max (spineChars spine) 1)
  else none

/-- Audio to ebook: the fraction of the containing chapter becomes the same
fraction of the mapped spine item's characters. -/
def mapTimeToLocator (positionMs : Int) (chapters : List AudioChapterSpan)
    (spine : List SpineItem) (mappings : List ChapterMapping) : Option MappedPosition := do
  let chapter ← chapterAt chapters positionMs
  let mapping ← mappedSpineIndex mappings chapter.index
  let item ← lookup SpineItem.index spine mapping.ebookSpineIndex
  let (charsBefore, totalChars) ← spineOffsets spine item.index
  let within ← clampUnit ((positionMs - chapter.startMs : Int) / (chapter.durationMs : ℚ))
  let charOffset : ℚ := charsBefore + within * (max item.charCount 0 : Int)
  let totalProgression ← clampUnit (charOffset / totalChars)
  return {
    locator := some
      { chapterTitle := ""
        href := item.href
        title := none
        locations := some
          { fragments := none
            progression := some within
            position := none
            totalProgression := some totalProgression
            cssSelector := none
            partialCfi := none }
        text := none
        koboSpan := none
        type := "application/xhtml+xml" }
    positionMs := none
    progression := totalProgression
    confidence := mapping.confidence
    approximate := true }

/-- The first spine item whose path ends in the given one or is its end. -/
def itemByHref (href : String) (spine : List SpineItem) : Option SpineItem :=
  if trimEndMatches '/' href = "" then none
  else spine.find? fun item => item.href ≠ "" ∧
    (endsWith item.href (trimEndMatches '/' href) ∨ endsWith (trimEndMatches '/' href) item.href)

/-- The spine item a character offset falls in; the last one takes what is past it. -/
def itemAtOffset (lastIndex : Int) (target : ℚ) : Int → List SpineItem → Option (SpineItem × ℚ)
  | _, [] => none
  | cumulative, item :: rest =>
    let chars := max item.charCount 0
    if target < (cumulative + chars : Int) ∨ item.index = lastIndex then
      if 0 < chars then (clampUnit ((target - cumulative) / chars)).map (item, ·)
      else some (item, 0)
    else itemAtOffset lastIndex target (cumulative + chars) rest

/-- Which spine item a locator is inside, and how far through it. -/
def locateInSpine (locator : ReadiumLocator) (spine : List SpineItem) : Option (SpineItem × ℚ) :=
  match itemByHref locator.href spine with
  | some item => some (item, ((locator.locations.bind (·.progression)).bind clampUnit).getD 0)
  | none => do
      let totalProgression ← (locator.locations.bind (·.totalProgression)).bind clampUnit
      let last ← spine.getLast?
      itemAtOffset last.index (totalProgression * (max (spineChars spine) 1 : Int)) 0 spine

/-- `f64::round`: to the nearest integer, half way cases away from zero. -/
def roundHalfAway (value : ℚ) : Int :=
  if 0 ≤ value then ⌊value + 1 / 2⌋ else -⌊-value + 1 / 2⌋

/-- Ebook to audio: the fraction through the spine item becomes the same fraction
through the mapped chapter's runtime. -/
def mapLocatorToTime (locator : ReadiumLocator) (spine : List SpineItem)
    (chapters : List AudioChapterSpan) (mappings : List ChapterMapping) :
    Option MappedPosition := do
  let (item, within) ← locateInSpine locator spine
  let mapping ← mappedChapterIndex mappings item.index
  let chapter ← (lookup AudioChapterSpan.index chapters mapping.audioChapterIndex).filter
    (0 < ·.durationMs)
  let within ← clampUnit within
  let positionMs := chapter.startMs + roundHalfAway (within * chapter.durationMs)
  let durationMs := ((chapters.map AudioChapterSpan.endMs).max?).getD 0
  return {
    locator := none
    positionMs := some positionMs
    progression := (timeProgression positionMs durationMs).getD 0
    confidence := mapping.confidence
    approximate := true }

section Round

theorem roundHalfAway_intCast (value : Int) : roundHalfAway value = value := by
  unfold roundHalfAway
  split
  · rw [Int.floor_eq_iff]
    constructor <;> linarith
  have floor : ⌊-(value : ℚ) + 1 / 2⌋ = -value := by
    rw [Int.floor_eq_iff]
    push_cast
    constructor <;> linarith
  rw [floor, neg_neg]

/-- Rounding a fraction of a length stays within the length. -/
theorem roundHalfAway_fraction {fraction : ℚ} {length : Int} (low : 0 ≤ fraction)
    (high : fraction ≤ 1) (positive : 0 < length) :
    0 ≤ roundHalfAway (fraction * length) ∧ roundHalfAway (fraction * length) ≤ length := by
  have lengthPositive : (0 : ℚ) < length := by exact_mod_cast positive
  have scaled : 0 ≤ fraction * length := mul_nonneg low lengthPositive.le
  have bounded : fraction * length ≤ length := mul_le_of_le_one_left lengthPositive.le high
  unfold roundHalfAway
  rw [if_pos scaled]
  refine ⟨Int.floor_nonneg.mpr (by linarith), ?_⟩
  have below : ⌊fraction * length + 1 / 2⌋ < length + 1 := by
    rw [Int.floor_lt]
    push_cast
    linarith
  omega

theorem clampUnit_of_unit {value : ℚ} (low : 0 ≤ value) (high : value ≤ 1) :
    clampUnit value = some value := by
  rw [clampUnit, clamp, min_eq_left high, max_eq_right low]

end Round

variable {item : SpineItem} {before after spine : List SpineItem}

section Spine

variable {lastIndex cumulative : Int} {within target : ℚ}

theorem spineChars_nonneg (spine : List SpineItem) : 0 ≤ spineChars spine := by
  refine sum_nonneg fun chars member => ?_
  obtain ⟨item, -, rfl⟩ := mem_map.mp member
  exact le_max_right _ _

theorem spineChars_cons (item : SpineItem) (rest : List SpineItem) :
    spineChars (item :: rest) = max item.charCount 0 + spineChars rest := by
  simp [spineChars]

/-- Items that end at or before the target, the last one apart, are passed over. -/
theorem itemAtOffset_skip (past : (cumulative + spineChars before : Int) ≤ target)
    (inner : ∀ item ∈ before, item.index ≠ lastIndex) :
    itemAtOffset lastIndex target cumulative (before ++ after) =
      itemAtOffset lastIndex target (cumulative + spineChars before) after := by
  induction before generalizing cumulative with
  | nil => simp [spineChars]
  | cons item rest ih =>
    rw [spineChars_cons, ← add_assoc] at past ⊢
    have reached : ((cumulative + max item.charCount 0 : Int) : ℚ) ≤ target := by
      refine le_trans ?_ past
      exact_mod_cast le_add_of_nonneg_right (spineChars_nonneg rest)
    have passed : ¬(target < (cumulative + max item.charCount 0 : Int) ∨
        item.index = lastIndex) := by
      rintro (short | final)
      · exact absurd reached (not_le.mpr short)
      · exact inner item (by simp) final
    rw [cons_append, itemAtOffset, if_neg passed]
    exact ih past fun other member => inner other (by simp [member])

/-- The item found lies in the list searched. -/
theorem itemAtOffset_mem
    (found : itemAtOffset lastIndex target cumulative spine = some (item, within)) :
    item ∈ spine := by
  induction spine generalizing cumulative with
  | nil => simp [itemAtOffset] at found
  | cons head rest ih =>
    simp only [itemAtOffset, clampUnit, Option.map_some] at found
    split at found
    · split at found <;> simp_all
    · exact mem_cons_of_mem _ (ih found)

/-- From an item boundary, the item found is entered at its start. -/
theorem itemAtOffset_boundary
    (found : itemAtOffset lastIndex cumulative cumulative spine = some (item, within)) :
    within = 0 := by
  induction spine with
  | nil => simp [itemAtOffset] at found
  | cons head rest ih =>
    simp only [itemAtOffset, clampUnit, Option.map_some] at found
    split at found
    · split at found
      · simp [clamp] at found
        exact found.2.symm
      · simp at found
        exact found.2.symm
    · rename_i passed
      have empty : max head.charCount 0 = 0 := by
        have short : ¬((cumulative : ℚ) < (cumulative + max head.charCount 0 : Int)) :=
          fun short => passed (.inl short)
        rw [Int.cast_lt] at short
        omega
      rw [empty, add_zero] at found
      exact ih found

theorem spineOffsets_split (distinct : ((before ++ item :: after).map SpineItem.index).Nodup) :
    spineOffsets (before ++ item :: after) item.index =
      some (spineChars before, max (spineChars (before ++ item :: after)) 1) := by
  have apart : ∀ other ∈ before, other.index ≠ item.index := by
    intro other member same
    rw [map_append, map_cons, nodup_middle, nodup_cons] at distinct
    exact distinct.1 (same ▸ by simpa using Or.inl ⟨other, member, rfl⟩)
  have taken : (before ++ item :: after).takeWhile (·.index ≠ item.index) = before := by
    rw [takeWhile_append_of_pos fun other member => decide_eq_true (apart other member)]
    simp
  unfold spineOffsets
  rw [if_pos (by simp), taken]

end Spine

/-- The shape of a chapter map between two editions: paths and indices name one
thing each, chapters do not overlap, and the map pairs them off. -/
structure Aligned (spine : List SpineItem) (chapters : List AudioChapterSpan)
    (mappings : List ChapterMapping) : Prop where
  spineIndices : (spine.map SpineItem.index).Nodup
  hrefs : (spine.map SpineItem.href).Nodup
  named : ∀ item ∈ spine, item.href ≠ ""
  chapterIndices : (chapters.map AudioChapterSpan.index).Nodup
  positive : ∀ chapter ∈ chapters, chapter.startMs < chapter.endMs
  disjoint : chapters.Pairwise fun left right =>
    left.endMs ≤ right.startMs ∨ right.endMs ≤ left.startMs
  ebookColumn : (mappings.map ChapterMapping.ebookSpineIndex).Nodup
  audioColumn : (mappings.map ChapterMapping.audioChapterIndex).Nodup

/-- A position inside a chapter the map has an entry for. -/
structure MappedChapter (chapters : List AudioChapterSpan) (mappings : List ChapterMapping)
    (positionMs : Int) (chapter : AudioChapterSpan) (mapping : ChapterMapping) : Prop where
  chapter_mem : chapter ∈ chapters
  started : chapter.startMs ≤ positionMs
  running : positionMs < chapter.endMs
  mapping_mem : mapping ∈ mappings
  audio : mapping.audioChapterIndex = chapter.index

/-- What a position becomes through the other edition and back. -/
def roundTrip (positionMs : Int) (chapters : List AudioChapterSpan) (spine : List SpineItem)
    (mappings : List ChapterMapping) : Option Int := do
  let mapped ← mapTimeToLocator positionMs chapters spine mappings
  let locator ← mapped.locator
  let back ← mapLocatorToTime locator spine chapters mappings
  back.positionMs

/-- How far a position is through its chapter. -/
def AudioChapterSpan.fraction (chapter : AudioChapterSpan) (positionMs : Int) : ℚ :=
  (positionMs - chapter.startMs : Int) / (chapter.durationMs : ℚ)

section RoundTrip

variable {chapters : List AudioChapterSpan} {mappings : List ChapterMapping} {positionMs : Int}
  {chapter : AudioChapterSpan} {mapping : ChapterMapping} {locator : ReadiumLocator}

theorem Aligned.apart (aligned : Aligned spine chapters mappings) {left right : AudioChapterSpan}
    (leftMember : left ∈ chapters) (rightMember : right ∈ chapters) (differ : left ≠ right) :
    left.endMs ≤ right.startMs ∨ right.endMs ≤ left.startMs := by
  have symm : Std.Symm fun left right : AudioChapterSpan =>
      left.endMs ≤ right.startMs ∨ right.endMs ≤ left.startMs := ⟨fun _ _ => Or.symm⟩
  exact aligned.disjoint.forall leftMember rightMember differ

theorem Aligned.durationMs_pos (aligned : Aligned spine chapters mappings)
    (member : chapter ∈ chapters) : 0 < chapter.durationMs := by
  have spans := aligned.positive chapter member
  unfold AudioChapterSpan.durationMs
  omega

section Fraction

variable (aligned : Aligned spine chapters mappings)
  (mapped : MappedChapter chapters mappings positionMs chapter mapping)
include aligned mapped

/-- The chapter a position lies in is the one found for it. -/
theorem Aligned.chapterAt_eq : chapterAt chapters positionMs = some chapter := by
  obtain ⟨member, started, running, -, -⟩ := mapped
  refine maxByKey_eq_some _ ?_ ?_
  · simp [member, started, aligned.durationMs_pos member]
  intro other stored
  simp only [mem_filter, decide_eq_true_eq] at stored
  by_cases same : other = chapter
  · exact .inl same
  have positive := aligned.positive other stored.1
  rcases aligned.apart stored.1 member same with before | after
  · exact .inr (by omega)
  · exact absurd stored.2.2 (by omega)

theorem Aligned.mappedSpineIndex_eq : mappedSpineIndex mappings chapter.index = some mapping :=
  (lookup_eq_some_iff aligned.audioColumn).mpr ⟨mapped.mapping_mem, mapped.audio⟩

theorem Aligned.duration_pos : (0 : ℚ) < chapter.durationMs := by
  exact_mod_cast aligned.durationMs_pos mapped.chapter_mem

theorem Aligned.fraction_mul :
    chapter.fraction positionMs * chapter.durationMs = (positionMs - chapter.startMs : Int) :=
  div_mul_cancel₀ _ (aligned.duration_pos mapped).ne'

theorem Aligned.fraction_low : 0 ≤ chapter.fraction positionMs := by
  refine div_nonneg ?_ (aligned.duration_pos mapped).le
  exact_mod_cast sub_nonneg.mpr mapped.started

theorem Aligned.fraction_high : chapter.fraction positionMs < 1 := by
  refine (div_lt_one (aligned.duration_pos mapped)).mpr ?_
  have inside : positionMs - chapter.startMs < chapter.durationMs :=
    sub_lt_sub_right mapped.running _
  exact_mod_cast inside

end Fraction

section Landing

variable (aligned : Aligned spine chapters mappings)
include aligned

/-- Where a fraction through a spine item lands: in the chapter its entry names. -/
theorem Aligned.land
    (located : locateInSpine locator spine = some (item, within)) (low : 0 ≤ within)
    (high : within ≤ 1) (member : mapping ∈ mappings) (entry : mapping.ebookSpineIndex = item.index)
    (chapterMember : chapter ∈ chapters) (audio : mapping.audioChapterIndex = chapter.index) :
    (mapLocatorToTime locator spine chapters mappings).bind (·.positionMs) =
      some (chapter.startMs + roundHalfAway (within * chapter.durationMs)) := by
  have entryFound : mappedChapterIndex mappings item.index = some mapping :=
    (lookup_eq_some_iff aligned.ebookColumn).mpr ⟨member, entry⟩
  have chapterFound : lookup AudioChapterSpan.index chapters mapping.audioChapterIndex =
      some chapter :=
    (lookup_eq_some_iff aligned.chapterIndices).mpr ⟨chapterMember, audio.symm⟩
  have kept : (some chapter).filter (0 < ·.durationMs) = some chapter := by
    simp [Option.filter, aligned.durationMs_pos chapterMember]
  simp [mapLocatorToTime, located, entryFound, chapterFound, kept, clampUnit_of_unit low high]

variable (mapped : MappedChapter chapters mappings positionMs chapter mapping)
include mapped

/-- A position does not come back through an item other than its own. -/
theorem Aligned.land_elsewhere
    (located : locateInSpine locator spine = some (item, within)) (low : 0 ≤ within)
    (high : within ≤ 1) (elsewhere : item.index ≠ mapping.ebookSpineIndex)
    (inner : within = 0 ∨ chapter.startMs < positionMs) :
    (mapLocatorToTime locator spine chapters mappings).bind (·.positionMs) ≠ some positionMs := by
  intro back
  obtain ⟨result, found, landed⟩ := Option.bind_eq_some_iff.mp back
  simp only [mapLocatorToTime, located, Option.bind_eq_bind, Option.bind_some,
    Option.bind_eq_some_iff, Option.filter_eq_some_iff, decide_eq_true_eq] at found
  obtain ⟨other, entry, landing, ⟨named, -⟩, -⟩ := found
  have otherMember := lookup_mem entry
  have landingMember := lookup_mem named
  have differ : landing ≠ chapter := by
    rintro rfl
    have same : other = mapping := by
      refine inj_on_of_nodup_map aligned.audioColumn otherMember mapped.mapping_mem ?_
      exact (lookup_key named).symm.trans mapped.audio.symm
    exact elsewhere (same ▸ (lookup_key entry).symm)
  rw [aligned.land located low high otherMember (lookup_key entry) landingMember
    (lookup_key named).symm, Option.some.injEq] at back
  have inside := roundHalfAway_fraction low high (aligned.durationMs_pos landingMember)
  have positive := aligned.positive landing landingMember
  have started := mapped.started
  have running := mapped.running
  have length : landing.durationMs = landing.endMs - landing.startMs := rfl
  rcases inner with zero | past
  · have still : roundHalfAway (within * landing.durationMs) = 0 := by
      rw [zero, zero_mul]
      exact_mod_cast roundHalfAway_intCast 0
    rcases aligned.apart landingMember mapped.chapter_mem differ with before | after <;> omega
  · rcases aligned.apart landingMember mapped.chapter_mem differ with before | after <;> omega

/-- The locator a position inside a mapped chapter becomes. -/
theorem Aligned.mapTimeToLocator_eq (split : spine = before ++ item :: after)
    (entry : item.index = mapping.ebookSpineIndex) :
    ∃ result locator locations, mapTimeToLocator positionMs chapters spine mappings = some result ∧
      result.locator = some locator ∧ locator.href = item.href ∧
      locator.locations = some locations ∧
      locations.progression.bind clampUnit = some (chapter.fraction positionMs) ∧
      (locations.totalProgression.bind clampUnit).map
          (fun total : ℚ => total * (max (spineChars spine) 1 : Int)) =
        some (spineChars before + chapter.fraction positionMs * (max item.charCount 0 : Int)) := by
  have itemFound : lookup SpineItem.index spine mapping.ebookSpineIndex = some item :=
    (lookup_eq_some_iff aligned.spineIndices).mpr ⟨by simp [split], entry⟩
  have offsets : spineOffsets spine item.index = some (spineChars before,
    max (spineChars spine) 1) :=
    split ▸ spineOffsets_split (split ▸ aligned.spineIndices)
  have low := aligned.fraction_low mapped
  have high := aligned.fraction_high mapped
  have within : clampUnit ((positionMs - chapter.startMs : Int) / (chapter.durationMs : ℚ)) =
      some (chapter.fraction positionMs) := clampUnit_of_unit low high.le
  have chars : (0 : ℚ) ≤ (max item.charCount 0 : Int) := by exact_mod_cast le_max_right _ _
  have beforeChars : (0 : ℚ) ≤ spineChars before := by exact_mod_cast spineChars_nonneg before
  have total : (0 : ℚ) < (max (spineChars spine) 1 : Int) := by
    exact_mod_cast lt_max_of_lt_right one_pos
  have fits : (spineChars before : ℚ) + chapter.fraction positionMs * (max item.charCount 0 : Int) ≤
      (max (spineChars spine) 1 : Int) := by
    have whole : spineChars before + max item.charCount 0 ≤ max (spineChars spine) 1 := by
      have rest := spineChars_nonneg after
      have sum : spineChars (before ++ item :: after) =
          spineChars before + spineChars (item :: after) := by simp [spineChars]
      rw [split, sum, spineChars_cons]
      omega
    have part : chapter.fraction positionMs * (max item.charCount 0 : Int) ≤
        (max item.charCount 0 : Int) := mul_le_of_le_one_left chars high.le
    have cast : ((spineChars before + max item.charCount 0 : Int) : ℚ) ≤
        (max (spineChars spine) 1 : Int) := Int.cast_le.mpr whole
    rw [Int.cast_add] at cast
    linarith
  have progression :=
    clampUnit_of_unit (div_nonneg (by positivity) total.le) ((div_le_one total).mpr fits)
  unfold mapTimeToLocator
  simp only [aligned.chapterAt_eq mapped, aligned.mappedSpineIndex_eq mapped, itemFound, offsets,
    within, progression, Option.bind_eq_bind, Option.bind_some, Option.pure_def, Option.some.injEq]
  refine ⟨_, _, _, rfl, rfl, rfl, rfl, clampUnit_of_unit low high.le, ?_⟩
  rw [Option.bind_some, progression, Option.map_some, div_mul_cancel₀ _ total.ne']

/-- A map entry whose spine item is missing maps nothing. -/
theorem Aligned.mapTimeToLocator_none
    (missing : ∀ item ∈ spine, item.index ≠ mapping.ebookSpineIndex) :
    mapTimeToLocator positionMs chapters spine mappings = none := by
  have itemMissing : lookup SpineItem.index spine mapping.ebookSpineIndex = none :=
    lookup_eq_none.mpr missing
  simp [mapTimeToLocator, aligned.chapterAt_eq mapped,
    aligned.mappedSpineIndex_eq mapped, itemMissing]

/-- The way back through a path that finds the item. -/
theorem Aligned.land_home (entry : item.index = mapping.ebookSpineIndex)
    (located : locateInSpine locator spine = some (item, chapter.fraction positionMs)) :
    (mapLocatorToTime locator spine chapters mappings).bind (·.positionMs) = some positionMs := by
  rw [aligned.land located (aligned.fraction_low mapped)
    (aligned.fraction_high mapped).le mapped.mapping_mem entry.symm
    mapped.chapter_mem mapped.audio, aligned.fraction_mul mapped, roundHalfAway_intCast]
  exact congrArg some (by omega)

/-- The way back by offset: into the item if it has characters, else to where its
boundary leads. -/
theorem Aligned.offset_back {last : SpineItem}
    (split : spine = before ++ item :: after) (entry : item.index = mapping.ebookSpineIndex)
    (final : spine.getLast? = some last)
    (located : locateInSpine locator spine = itemAtOffset last.index
      (spineChars before + chapter.fraction positionMs * (max item.charCount 0 : Int)) 0 spine) :
    (mapLocatorToTime locator spine chapters mappings).bind (·.positionMs) = some positionMs ↔
      0 < item.charCount ∨ last = item ∧ positionMs = chapter.startMs := by
  have low := aligned.fraction_low mapped
  have high := aligned.fraction_high mapped
  have distinct := aligned.spineIndices
  rw [split, map_append, nodup_append] at distinct
  obtain ⟨-, tailDistinct, apart⟩ := distinct
  have lastLate : last ∈ item :: after := by
    rw [split, getLast?_append_of_ne_nil _ (by simp)] at final
    exact mem_of_getLast? final
  have inner : ∀ other ∈ before, other.index ≠ last.index := fun other member =>
    apart _ (mem_map_of_mem member) _ (mem_map_of_mem lastLate)
  have chars : (0 : ℚ) ≤ (max item.charCount 0 : Int) := by exact_mod_cast le_max_right _ _
  have past : ((0 + spineChars before : Int) : ℚ) ≤
      spineChars before + chapter.fraction positionMs * (max item.charCount 0 : Int) := by
    rw [zero_add]
    exact le_add_of_nonneg_right (mul_nonneg low chars)
  have reached : locateInSpine locator spine = itemAtOffset last.index
      (spineChars before + chapter.fraction positionMs * (max item.charCount 0 : Int))
      (spineChars before) (item :: after) := by
    rw [located]
    conv_lhs => rw [split]
    rw [itemAtOffset_skip past inner, zero_add]
  by_cases filled : 0 < item.charCount
  · have count : max item.charCount 0 = item.charCount := max_eq_left filled.le
    have positive : (0 : ℚ) < item.charCount := by exact_mod_cast filled
    have short : (spineChars before : ℚ) + chapter.fraction positionMs * item.charCount <
        (spineChars before + item.charCount : Int) := by
      push_cast
      have part := mul_lt_of_lt_one_left positive high
      linarith
    rw [itemAtOffset, count] at reached
    simp only [short, true_or, if_true, filled, Option.map_some, add_sub_cancel_left,
      mul_div_cancel_right₀ _ positive.ne', clampUnit_of_unit low high.le] at reached
    exact ⟨fun _ => .inl filled, fun _ => aligned.land_home mapped entry reached⟩
  · have count : max item.charCount 0 = 0 := max_eq_right (not_lt.mp filled)
    rw [count, Int.cast_zero, mul_zero, add_zero, itemAtOffset, count] at reached
    simp only [add_zero, lt_irrefl, false_or, if_false] at reached
    by_cases same : last = item
    · subst same
      rw [if_pos rfl] at reached
      have back := aligned.land reached le_rfl zero_le_one mapped.mapping_mem entry.symm
        mapped.chapter_mem mapped.audio
      have still : roundHalfAway (0 * (chapter.durationMs : ℚ)) = 0 := by
        rw [zero_mul]
        exact_mod_cast roundHalfAway_intCast 0
      rw [back, still, add_zero, Option.some.injEq]
      simp [filled, eq_comm]
    · have differ : item.index ≠ last.index := by
        intro equal
        rw [map_cons, nodup_cons] at tailDistinct
        rcases mem_cons.mp lastLate with rfl | later
        · exact same rfl
        · exact tailDistinct.1 (equal ▸ mem_map_of_mem later)
      rw [if_neg differ] at reached
      simp only [filled, same, false_and, or_self, iff_false]
      cases found : itemAtOffset last.index (spineChars before) (spineChars before) after with
      | none =>
        rw [found] at reached
        simp [mapLocatorToTime, reached]
      | some landing =>
        obtain ⟨other, within⟩ := landing
        rw [found] at reached
        have start := itemAtOffset_boundary found
        have elsewhere : other.index ≠ mapping.ebookSpineIndex := by
          rw [map_cons, nodup_cons] at tailDistinct
          intro equal
          exact tailDistinct.1 (entry.trans equal.symm ▸ mem_map_of_mem (itemAtOffset_mem found))
        exact aligned.land_elsewhere mapped reached start.ge (start.le.trans zero_le_one) elsewhere
          (.inl start)

end Landing

/-- A position inside a mapped chapter comes back from the other edition exactly when
the chapter's spine item exists and its own path finds it; or its path finds nothing
and the item has characters, or ends the book and the position starts the chapter. -/
theorem position_round_trips_iff (aligned : Aligned spine chapters mappings)
    (mapped : MappedChapter chapters mappings positionMs chapter mapping) :
    roundTrip positionMs chapters spine mappings = some positionMs ↔
      ∃ item ∈ spine, item.index = mapping.ebookSpineIndex ∧
        (itemByHref item.href spine = some item ∨
          itemByHref item.href spine = none ∧
            (0 < item.charCount ∨
              spine.getLast? = some item ∧ positionMs = chapter.startMs)) := by
  by_cases missing : ∀ item ∈ spine, item.index ≠ mapping.ebookSpineIndex
  · have nothing := aligned.mapTimeToLocator_none mapped missing
    constructor
    · intro back
      simp [roundTrip, nothing] at back
    · rintro ⟨item, member, entry, -⟩
      exact absurd entry (missing item member)
  · push Not at missing
    obtain ⟨item, member, entry⟩ := missing
    have only : ∀ other ∈ spine, other.index = mapping.ebookSpineIndex → other = item :=
      fun other stored same => inj_on_of_nodup_map aligned.spineIndices stored member
        (same.trans entry.symm)
    have condition (holds : SpineItem → Prop) :
        (∃ other ∈ spine, other.index = mapping.ebookSpineIndex ∧ holds other) ↔ holds item := by
      constructor
      · rintro ⟨other, stored, same, own⟩
        obtain rfl := only other stored same
        exact own
      · intro own
        exact ⟨item, member, entry, own⟩
    rw [condition]
    obtain ⟨before, after, split⟩ := append_of_mem member
    obtain ⟨result, locator, locations, there, carried, href, located, within, offset⟩ :=
      aligned.mapTimeToLocator_eq mapped split entry
    have back : roundTrip positionMs chapters spine mappings =
        (mapLocatorToTime locator spine chapters mappings).bind (·.positionMs) := by
      simp [roundTrip, there, carried]
    rw [back]
    cases found : itemByHref item.href spine with
    | some other =>
      have reached : locateInSpine locator spine = some (other, chapter.fraction positionMs) := by
        simp [locateInSpine, href, found, located, within]
      simp only [Option.some.injEq, reduceCtorEq, false_and, or_false]
      constructor
      · intro home
        by_contra differ
        have stored : other ∈ spine := by
          unfold itemByHref at found
          split at found
          · cases found
          · exact mem_of_find?_eq_some found
        refine aligned.land_elsewhere mapped reached
          (aligned.fraction_low mapped)
          (aligned.fraction_high mapped).le
          (fun same => differ (only other stored same)) ?_ home
        rcases mapped.started.eq_or_lt with start | inside
        · left
          simp [AudioChapterSpan.fraction, start]
        · exact .inr inside
      · rintro rfl
        exact aligned.land_home mapped entry reached
    | none =>
      have nonempty : spine ≠ [] := ne_nil_of_mem member
      have final : spine.getLast? = some (spine.getLast nonempty) :=
        getLast?_eq_some_getLast nonempty
      simp only [reduceCtorEq, false_or, true_and]
      obtain ⟨total, totalGiven, target⟩ := Option.map_eq_some_iff.mp offset
      have reached : locateInSpine locator spine = itemAtOffset (spine.getLast nonempty).index
          (spineChars before + chapter.fraction positionMs * (max item.charCount 0 : Int)) 0
          spine := by
        rw [← target]
        simp [locateInSpine, href, found, located, totalGiven, final]
      rw [aligned.offset_back mapped split entry final reached, final, Option.some.injEq]

end RoundTrip

section Sample

/-- Two chapters of a second each, read from two files of equal length. -/
def sampleChapters : List AudioChapterSpan := [⟨0, 0, 1000⟩, ⟨1, 1000, 2000⟩]

def sampleSpine (first second : String) : List SpineItem := [⟨0, first, 100⟩, ⟨1, second, 100⟩]

def sampleChapterMap : List ChapterMapping := [⟨0, 0, 1⟩, ⟨1, 1, 1⟩]

theorem sample_aligned {first second : String} (differ : first ≠ second) (named : first ≠ "")
    (alsoNamed : second ≠ "") :
    Aligned (sampleSpine first second) sampleChapters sampleChapterMap where
  spineIndices := by simp [sampleSpine]
  hrefs := by simpa [sampleSpine] using differ
  named := by simp [sampleSpine, named, alsoNamed]
  chapterIndices := by decide
  positive := by decide
  disjoint := by decide
  ebookColumn := by decide
  audioColumn := by decide

/-- A path that is the end of another's takes the position of the other's chapter. -/
theorem suffix_path_moves_position :
    Aligned (sampleSpine "1.xhtml" "ch1.xhtml") sampleChapters sampleChapterMap ∧
    MappedChapter sampleChapters sampleChapterMap 1500 ⟨1, 1000, 2000⟩ ⟨1, 1, 1⟩ ∧
    roundTrip 1500 sampleChapters (sampleSpine "1.xhtml" "ch1.xhtml") sampleChapterMap = some 500 :=
  ⟨sample_aligned (by decide) (by decide) (by decide),
    ⟨by decide, by decide, by decide, by decide +kernel, rfl⟩, by decide +kernel⟩

theorem position_round_trips_iff_sample :
    roundTrip 1500 sampleChapters (sampleSpine "ch1.xhtml" "ch2.xhtml") sampleChapterMap =
      some 1500 :=
  (position_round_trips_iff
    (sample_aligned (by decide : "ch1.xhtml" ≠ "ch2.xhtml") (by decide) (by decide))
    (⟨by decide, by decide, by decide, by decide +kernel, rfl⟩ :
      MappedChapter sampleChapters sampleChapterMap 1500 ⟨1, 1000, 2000⟩ ⟨1, 1, 1⟩)).mpr
    ⟨⟨1, "ch2.xhtml", 100⟩, by decide, rfl, .inl (by decide +kernel)⟩

end Sample

end Coppice.Models
