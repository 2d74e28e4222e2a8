import Mathlib.Data.String.Basic
import Coppice.Std.Batch
import Coppice.Std.Machine
import Coppice.Std.Table
import Coppice.Std.Text

/-!
# Duplicates of provider series

`record_identity` stores the dedupe key of a materialised series and links the series to one of
another source with the same key. `merge_series` drops a series for another one; modelled is what
it does to series, identities and links. Links are flat as long as no series that others are
linked to gets a link of its own.
-/

namespace Coppice.Provider

open Coppice.Std

/-- `is_alphanumeric` and `to_lowercase` of `char`. -/
class Letters where
  isAlphanumeric : Char → Bool
  toLowercase : Char → List Char

structure RemoteSeries where
  title : String
  externalIds : List (String × String)

structure Series where
  id : String
  path : String
  sourceProvider : Option String

structure SeriesIdentity where
  seriesId : String
  sourceProvider : String
  normalisedTitle : String
  externalKey : Option String
  createdAt : Int

inductive LinkReason where
  | externalKey
  | title
deriving DecidableEq

structure SeriesLink where
  seriesId : String
  canonicalSeriesId : String
  reason : LinkReason
  createdAt : Int
deriving DecidableEq

structure Store where
  series : List Series
  identities : List SeriesIdentity
  links : List SeriesLink

inductive ProviderError where
  | other (message : String)
  | notVirtual (path : String)

/-- Lowercased, with one space for every run of other characters between two words. -/
def normaliseTitle [Letters] (title : String) : String :=
  .ofList (title.toList.foldl (fun (out, pendingSpace) ch =>
    if Letters.isAlphanumeric ch then
      (out ++ (if pendingSpace ∧ out ≠ [] then [' '] else []) ++ Letters.toLowercase ch, false)
    else (out, true)) ([], false)).1

def EXTERNAL_REGISTRIES : List String := ["al", "mal", "mu"]

def externalKey (externalIds : List (String × String)) : Option String :=
  EXTERNAL_REGISTRIES.findSome? fun registry => do
    let value := trim (← lookup Prod.fst externalIds registry).2
    if value = "" then none else some (registry ++ ":" ++ value)

/-- The loop of `resolve_canonical`; a link is followed at most once. -/
def followLinks (links : List SeriesLink) : Nat → List String → String → String
  | 0, _, seriesId => seriesId
  | fuel + 1, seen, seriesId =>
    match lookup SeriesLink.seriesId links seriesId with
    | none => seriesId
    | some link =>
      if link.canonicalSeriesId ∈ seen then seriesId
      else followLinks links fuel (seen ++ [link.canonicalSeriesId]) link.canonicalSeriesId

def resolveCanonical (links : List SeriesLink) (seriesId : String) : String :=
  followLinks links (links.length + 1) [seriesId] seriesId

namespace Store

variable (s : Store)

def providerSeries (seriesId : String) : Except ProviderError Series :=
  match lookup Series.id s.series seriesId with
  | none => .error (.other ("Series " ++ seriesId ++ " not found"))
  | some row => if row.sourceProvider.isSome then .ok row else .error (.notVirtual row.path)

/-- The oldest identity of another source that matches and whose series is there. -/
def candidate (sourceId seriesId : String) (matches_ : SeriesIdentity → Bool) : Option String :=
  let rows := s.identities.filter fun row =>
    matches_ row ∧ row.sourceProvider ≠ sourceId ∧ row.seriesId ≠ seriesId
  let ordered := orderBy SeriesIdentity.createdAt (orderBy SeriesIdentity.seriesId rows)
  (ordered.find? fun row => s.series.any fun series =>
    series.id = row.seriesId ∧ series.sourceProvider.isSome).map SeriesIdentity.seriesId

/-- The insert; of a row that is there the time of creation stays. -/
def putIdentity (row : SeriesIdentity) : Store :=
  let createdAt := (lookup SeriesIdentity.seriesId s.identities row.seriesId).elim row.createdAt
    SeriesIdentity.createdAt
  { s with identities := upsert SeriesIdentity.seriesId s.identities { row with createdAt } }

def recordIdentity [Letters] (now : Int) (seriesId sourceId : String) (details : RemoteSeries) :
    Option SeriesLink × Store :=
  let title := normaliseTitle details.title
  if title = "" then (none, s)
  else
    let key := externalKey details.externalIds
    let s := s.putIdentity ⟨seriesId, sourceId, title, key, now⟩
    match lookup SeriesLink.seriesId s.links seriesId with
    | some link => (some link, s)
    | none =>
      let byKey := key.bind fun key => s.candidate sourceId seriesId (·.externalKey = some key)
      let byTitle := s.candidate sourceId seriesId (·.normalisedTitle = title)
      match (byKey.map (·, .externalKey)).or (byTitle.map (·, LinkReason.title)) with
      | none => (none, s)
      | some (found, reason) =>
        let canonical := resolveCanonical s.links found
        if canonical = seriesId then (none, s)
        else
          let link := ⟨seriesId, canonical, reason, now⟩
          (some link, { s with links := s.links ++ [link] })

def mergeSeries (keep drop : String) : Except ProviderError Store := do
  if keep = drop then .error (.other "Cannot merge a series into itself")
  else
    let kept ← s.providerSeries keep
    let dropped ← s.providerSeries drop
    -- Duplicates of the dropped series now duplicate the kept one.
    let links := s.links.map fun link =>
      if link.canonicalSeriesId = dropped.id then { link with canonicalSeriesId := kept.id }
      else link
    return {
      series := s.series.filter (·.id ≠ dropped.id)
      identities := s.identities.filter (·.seriesId ≠ dropped.id)
      links := links.filter (·.seriesId ≠ dropped.id) }

/-- No link is to its own series, or to one that has a link. -/
def Flat : Prop := ∀ link ∈ s.links, ∀ other ∈ s.links, other.seriesId ≠ link.canonicalSeriesId

def Fresh : Prop := s.identities = [] ∧ s.links = []

end Store

inductive Action where
  | record (now : Int) (seriesId sourceId : String) (details : RemoteSeries)
  | merge (keep drop : String)

section Runs

variable [Letters] {s next : Store} {keep drop : String}

/-- Identities are recorded for provider series; a call that fails changes nothing. -/
def provider : Machine Store Action := fun action s =>
  match action with
  | .record now seriesId sourceId details =>
    if (s.providerSeries seriesId).isOk then some (s.recordIdentity now seriesId sourceId details).2
    else none
  | .merge keep drop => some ((s.mergeSeries keep drop).toOption.getD s)

/-- An identity of another source that a series may be matched with: it has the external key or
the title of the series, and its own series is there. -/
def Store.Matching (s : Store) (seriesId sourceId : String) (details : RemoteSeries)
    (row : SeriesIdentity) : Prop :=
  row.sourceProvider ≠ sourceId ∧ row.seriesId ≠ seriesId ∧
    (∃ series ∈ s.series, series.id = row.seriesId ∧ series.sourceProvider.isSome) ∧
    ((externalKey details.externalIds).isSome ∧
        row.externalKey = externalKey details.externalIds ∨
      row.normalisedTitle = normaliseTitle details.title)

/-- The identity of a series that others are linked to is recorded with a title that has no word,
or matches only identities of series that are linked to it. A series that others are linked to is
dropped only for one that has no link. -/
def Unchained : Action → Store → Prop
  | .record _ seriesId sourceId details, s =>
    normaliseTitle details.title = "" ∨ (∀ link ∈ s.links, link.canonicalSeriesId ≠ seriesId) ∨
      ∀ row ∈ s.identities, s.Matching seriesId sourceId details row →
        (lookup SeriesLink.seriesId s.links row.seriesId).map SeriesLink.canonicalSeriesId =
          some seriesId
  | .merge keep drop, s =>
    (∀ link ∈ s.links, link.canonicalSeriesId ≠ drop) ∨ ∀ link ∈ s.links, link.seriesId ≠ keep

omit [Letters] in
theorem resolveCanonical_unlinked (flat : s.Flat) (found : String) :
    ∀ link ∈ s.links, link.seriesId ≠ resolveCanonical s.links found := by
  rw [resolveCanonical, followLinks]
  split
  · rename_i absent
    exact lookup_eq_none.mp absent
  rename_i link present
  have member := lookup_mem present
  have other : link.canonicalSeriesId ∉ [found] := by
    rw [List.mem_singleton, ← lookup_key present]
    exact (flat link member link member).symm
  have last := flat link member
  rw [if_neg other]
  obtain ⟨count, length⟩ := Nat.exists_eq_succ_of_ne_zero (List.length_pos_of_mem member).ne'
  rw [length, followLinks, lookup_eq_none.mpr last]
  exact last

omit [Letters] in
/-- A duplicate of a series without a link is followed to that series. -/
theorem resolveCanonical_duplicate {links : List SeriesLink} {found seriesId : String}
    (other : found ≠ seriesId) (unlinked : lookup SeriesLink.seriesId links seriesId = none)
    (linked : (lookup SeriesLink.seriesId links found).map SeriesLink.canonicalSeriesId =
      some seriesId) : resolveCanonical links found = seriesId := by
  obtain ⟨link, present, rfl⟩ := Option.map_eq_some_iff.mp linked
  obtain ⟨count, length⟩ := Nat.exists_eq_succ_of_ne_zero
    (List.length_pos_of_mem (lookup_mem present)).ne'
  have new : link.canonicalSeriesId ∉ [found] := by simpa using other.symm
  rw [resolveCanonical, followLinks, present]
  simp only [if_neg new, length, followLinks, unlinked]

omit [Letters] in
theorem candidate_some {matches_ : SeriesIdentity → Bool} {sourceId seriesId found : String}
    (chosen : s.candidate sourceId seriesId matches_ = some found) :
    ∃ row ∈ s.identities, row.seriesId = found ∧ matches_ row = true ∧
      row.sourceProvider ≠ sourceId ∧ row.seriesId ≠ seriesId ∧
      ∃ series ∈ s.series, series.id = row.seriesId ∧ series.sourceProvider.isSome := by
  obtain ⟨row, first, rfl⟩ := Option.map_eq_some_iff.mp chosen
  have member := List.mem_of_find?_eq_some first
  have there := List.find?_some first
  simp only [mem_orderBy, List.mem_filter, decide_eq_true_eq] at member
  simp only [List.any_eq_true, decide_eq_true_eq] at there
  exact ⟨row, member.1, rfl, member.2.1, member.2.2.1, member.2.2.2, there⟩

/-- A link that is recorded goes from a series without one to where a matching series leads. -/
theorem recordIdentity_links (s : Store) (now : Int) (seriesId sourceId : String)
    (details : RemoteSeries) :
    (s.recordIdentity now seriesId sourceId details).2.links = s.links ∨
      normaliseTitle details.title ≠ "" ∧ lookup SeriesLink.seriesId s.links seriesId = none ∧
      ∃ row ∈ s.identities, s.Matching seriesId sourceId details row ∧
        resolveCanonical s.links row.seriesId ≠ seriesId ∧ ∃ reason,
        (s.recordIdentity now seriesId sourceId details).2.links =
          s.links ++ [⟨seriesId, resolveCanonical s.links row.seriesId, reason, now⟩] := by
  unfold Store.recordIdentity
  extract_lets title key stored byKey byTitle
  split
  · exact .inl rfl
  rename_i worded
  split
  · exact .inl rfl
  rename_i unlinked
  split
  · exact .inl rfl
  rename_i found reason chosen
  extract_lets canonical
  split
  · exact .inl rfl
  rename_i differ
  have matched {matches_ : SeriesIdentity → Bool} (wanted : ∀ row, matches_ row = true →
        key.isSome ∧ row.externalKey = key ∨ row.normalisedTitle = title)
      (chosen : stored.candidate sourceId seriesId matches_ = some found) :
      ∃ row ∈ s.identities, row.seriesId = found ∧ s.Matching seriesId sourceId details row := by
    obtain ⟨row, recorded, same, fits, source, other, there⟩ := candidate_some chosen
    refine ⟨row, ?_, same, source, other, there, wanted row fits⟩
    -- The identity just stored is the only one that may be new.
    rcases mem_upsert.mp recorded with rfl | ⟨old, -⟩
    · exact absurd rfl other
    · exact old
  have matching : ∃ row ∈ s.identities, row.seriesId = found ∧
      s.Matching seriesId sourceId details row := by
    rcases Option.or_eq_some_iff.mp chosen with chosen | ⟨-, chosen⟩
    · obtain ⟨_, keyed, ⟨⟩⟩ := Option.map_eq_some_iff.mp chosen
      obtain ⟨value, present, keyed⟩ := Option.bind_eq_some_iff.mp keyed
      exact matched (fun row fits => .inl ⟨present ▸ rfl, by simpa [present] using fits⟩) keyed
    · obtain ⟨_, named, ⟨⟩⟩ := Option.map_eq_some_iff.mp chosen
      exact matched (fun row fits => .inr (by simpa using fits)) named
  obtain ⟨row, recorded, rfl, matching⟩ := matching
  exact .inr ⟨worded, unlinked, row, recorded, matching, differ, reason, rfl⟩

theorem flat_record (flat : s.Flat) {now : Int} {seriesId sourceId : String}
    {details : RemoteSeries} (unchained : Unchained (.record now seriesId sourceId details) s) :
    (s.recordIdentity now seriesId sourceId details).2.Flat := by
  unfold Store.Flat
  rcases recordIdentity_links s now seriesId sourceId details with
    same | ⟨worded, unlinked, row, recorded, matching, own, reason, added⟩
  · rw [same]
    exact flat
  rcases unchained with wordless | free | linked
  · exact absurd wordless worded
  rotate_left
  · have linked := linked row recorded matching
    exact absurd (resolveCanonical_duplicate matching.2.1 unlinked linked) own
  simp only [added, List.mem_append, List.mem_singleton]
  rintro link (old | rfl) other (old' | rfl)
  · exact flat link old other old'
  · exact (free link old).symm
  · exact resolveCanonical_unlinked flat row.seriesId other old'
  · exact own.symm

omit [Letters] in
theorem mergeSeries_links (merged : s.mergeSeries keep drop = .ok next) {link : SeriesLink}
    (linked : link ∈ next.links) : ∃ old ∈ s.links, old.seriesId = link.seriesId ∧
      link.canonicalSeriesId =
        if old.canonicalSeriesId = drop then keep else old.canonicalSeriesId := by
  have named {id : String} {row : Series} (found : s.providerSeries id = .ok row) :
      row.id = id := by
    unfold Store.providerSeries at found
    split at found
    · cases found
    · rename_i present
      split at found <;> cases found
      exact lookup_key present
  unfold Store.mergeSeries at merged
  split at merged
  · cases merged
  obtain ⟨kept, keeps, merged⟩ := bind_eq_ok.mp merged
  obtain ⟨dropped, drops, merged⟩ := bind_eq_ok.mp merged
  cases merged
  obtain rfl := named keeps
  obtain rfl := named drops
  obtain ⟨old, stored, rfl⟩ := List.mem_map.mp (List.mem_of_mem_filter linked)
  refine ⟨old, stored, ?_, ?_⟩ <;> split <;> rfl

theorem flat_merge (flat : s.Flat) (unchained : Unchained (.merge keep drop) s)
    (merged : s.mergeSeries keep drop = .ok next) : next.Flat := by
  intro link linked other present
  obtain ⟨old, stored, -, target⟩ := mergeSeries_links merged linked
  obtain ⟨before, stored', same, -⟩ := mergeSeries_links merged present
  rw [target, ← same]
  split
  · rename_i dropped
    rcases unchained with none | free
    · exact absurd dropped (none old stored)
    · exact free before stored'
  · exact flat old stored before stored'

/-- In every run whose steps make no chain, the links are flat. -/
theorem duplicates_flat (reachable : (provider.guarded Store.Fresh Unchained).Reachable s) :
    s.Flat := by
  refine Machine.guarded_invariant (I := Store.Flat) (fun s fresh link linked => ?_)
    (fun s next action flat unchained performed => ?_) reachable
  · rw [fresh.2] at linked
    cases linked
  cases action with
  | record now seriesId sourceId details =>
    obtain ⟨-, ⟨⟩⟩ := Option.ite_none_right_eq_some.mp performed
    exact flat_record flat unchained
  | merge keep drop =>
    cases performed
    cases merged : s.mergeSeries keep drop with
    | error refusal => exact flat
    | ok next => exact flat_merge flat unchained merged

end Runs

section Sample

local instance : Letters := ⟨(· ≠ ' '), ([·])⟩

instance (s : Store) (seriesId sourceId : String) (details : RemoteSeries) :
    DecidablePred (s.Matching seriesId sourceId details) :=
  fun _ => inferInstanceAs (Decidable (_ ∧ _))

instance : ∀ action s, Decidable (Unchained action s)
  | .record .., _ => inferInstanceAs (Decidable (_ ∨ _))
  | .merge .., _ => inferInstanceAs (Decidable (_ ∨ _))

def threeSources : Store :=
  ⟨[⟨"A", "", some "a"⟩, ⟨"B", "", some "b"⟩, ⟨"C", "", some "c"⟩], [], []⟩

def titled (now : Int) (seriesId sourceId title : String) : Action :=
  .record now seriesId sourceId ⟨title, []⟩

/-- A series that others are linked to is refreshed, and then a duplicate is merged into it. -/
theorem duplicates_flat_sample :
    ∃ s : Store, s.links.map SeriesLink.canonicalSeriesId = ["A"] ∧ s.Flat := by
  have ran : (provider.guardedRun Unchained
      [titled 1 "A" "a" "one", titled 2 "B" "b" "one", titled 3 "C" "c" "one",
        titled 4 "A" "a" "one", .merge "A" "B"] threeSources).map
        Store.links = some [⟨"C", "A", .title, 3⟩] := by decide +kernel
  obtain ⟨s, ran, links⟩ := Option.map_eq_some_iff.mp ran
  exact ⟨s, by rw [links]; rfl, duplicates_flat (Machine.reachable_of_guardedRun ⟨rfl, rfl⟩ ran)⟩

/-- A series is merged into its duplicate. -/
theorem duplicates_not_flat : ∃ s, (provider.system Store.Fresh).Reachable s ∧
    ∃ link ∈ s.links, link.canonicalSeriesId = link.seriesId := by
  have ran : (provider.run
      [titled 1 "A" "a" "one", titled 2 "B" "b" "one", .merge "B" "A"] threeSources).map
        Store.links = some [⟨"B", "B", .title, 2⟩] := by decide +kernel
  obtain ⟨s, ran, links⟩ := Option.map_eq_some_iff.mp ran
  refine ⟨s, Machine.reachable_of_run ⟨rfl, rfl⟩ ran, ?_⟩
  rw [links]
  exact ⟨_, List.mem_cons_self, rfl⟩

end Sample

end Coppice.Provider
