import Coppice.Std.System
import Coppice.LiseurSync.Links

/-!
# Edition pairs as a state machine

Pairing writes at most two links, each under its own media row. `linkAfter` is the
row one side of a write leaves; a write moves the link of each side to it and
touches no other, and doing so twice is doing it once. From this follow the
verdicts a link can go through, and what a written pair means.
-/

namespace Coppice.LiseurSync

open Coppice.Std Models Models.Store

theorem nextEvidence_idem (current : Option PairEvidence) (evidence : PairEvidence) :
    nextEvidence (some (nextEvidence current evidence)) evidence =
      nextEvidence current evidence := by
  cases current with
  | none => exact if_pos le_rfl
  | some current => by_cases weaker : evidence.rank ≤ current.rank <;> simp [nextEvidence, weaker]

/-- A verdict that is not a refusal never becomes one by a write that is none. -/
theorem nextStatus_ne_rejected {current status : PairStatus} (standing : current ≠ .rejected)
    (written : status ≠ .rejected) : nextStatus current status ≠ .rejected := by
  unfold nextStatus
  split
  · exact written
  · exact standing

variable {link : MediaLink} {now : Int} {ids : PairIds} {s s' : Store}
  {uuid mediaId anchorMediaId otherMediaId workId mediaA mediaB : String} {status : PairStatus}
  {evidence : PairEvidence}

theorem linkForMedia_ite {found : Option MediaLink} (linked : s.linkForMedia mediaId = found)
    (other : String) :
    s.linkForMedia other = if other = mediaId then found else s.linkForMedia other := by
  split
  · rename_i same
    rw [same, linked]
  · rfl

/-- Rewriting one link by its identity rewrites the link of its media row only. -/
theorem linkForMedia_updateLink {f : MediaLink → MediaLink}
    (keys : LinkKeys s) (linked : s.linkForMedia mediaId = some link)
    (keeps : ∀ row, (f row).mediaId = row.mediaId) (other : String) :
    (updateLink s link.id f).linkForMedia other =
      if other = mediaId then some (f link) else s.linkForMedia other := by
  have media := lookup_key linked
  have found : (updateLink s link.id f).linkForMedia other =
      (s.linkForMedia other).map fun row => if row.id = link.id then f row else row := by
    refine lookup_map fun row => ?_
    split
    · exact keeps row
    · rfl
  rw [found]
  split
  · rename_i same
    rw [same, linked]
    simp
  rename_i differ
  cases theirs : s.linkForMedia other with
  | none => rfl
  | some row =>
    have apart : row.id ≠ link.id := by
      intro same
      have equal := List.inj_on_of_nodup_map keys.ids (lookup_mem theirs) (lookup_mem linked) same
      have key := lookup_key theirs
      rw [equal, media] at key
      exact differ key.symm
    simp [apart]

section Sides

variable [Host]

/-- The link of a media row after one side of a pair was written. -/
def linkAfter (now : Int) (uuid mediaId workId : String) (status : PairStatus)
    (evidence : PairEvidence) : Option MediaLink → MediaLink
  | none => pairLink now uuid mediaId workId status evidence
  | some link =>
    { link with
      pairStatus := nextStatus link.pairStatus status
      pairEvidence := some (nextEvidence link.pairEvidence evidence) }

/-- One side of a pair, when the link of the media row, if any, is of the work. -/
theorem upsertLink_links (now : Int) (status : PairStatus) (evidence : PairEvidence)
    (keys : LinkKeys s) (fresh : ∀ link ∈ s.links, link.id ≠ uuid)
    (homed : ∀ link, s.linkForMedia mediaId = some link → link.workId = workId) :
    ∃ s' wrote, upsertLink now uuid s mediaId workId (s.linkForMedia mediaId) status evidence =
        .ok (s', wrote) ∧ LinkKeys s' ∧
      ∀ other, s'.linkForMedia other = if other = mediaId then
        some (linkAfter now uuid mediaId workId status evidence (s.linkForMedia mediaId))
        else s.linkForMedia other := by
  unfold upsertLink
  cases linked : s.linkForMedia mediaId with
  | none =>
    simp only [Option.isSome_none, Bool.false_eq_true, if_false]
    have absent : lookup MediaLink.mediaId s.links mediaId = none := linked
    refine ⟨_, _, rfl, ⟨nodup_concat keys.ids fresh, nodup_added keys.media absent⟩,
      fun other => ?_⟩
    have added : lookup MediaLink.mediaId
        (s.links ++ [pairLink now uuid mediaId workId status evidence]) other =
        (s.linkForMedia other).or (if mediaId = other then
          some (pairLink now uuid mediaId workId status evidence) else none) := by
      rw [lookup_append, lookup_cons]
      rfl
    refine added.trans ?_
    by_cases same : other = mediaId
    · subst same
      simp [linked, linkAfter]
    · simp [same, Ne.symm same]
  | some link =>
    simp only [homed link linked, ne_eq, not_true_eq_false, if_false]
    split
    · rename_i same
      have unchanged : linkAfter now uuid mediaId workId status evidence (some link) = link := by
        simp only [linkAfter]
        rw [same.1, same.2]
      exact ⟨_, _, rfl, keys, linkForMedia_ite (linked.trans (congrArg some unchanged.symm))⟩
    · exact ⟨_, _, rfl, keys.update fun _ _ _ => ⟨rfl, rfl⟩,
        linkForMedia_updateLink keys linked fun _ => rfl⟩

/-- Writing a side again changes nothing. -/
theorem upsertLink_again (homed : link.workId = workId)
    (settled : linkAfter now uuid mediaId workId status evidence (some link) = link) :
    upsertLink now uuid s mediaId workId (some link) status evidence = .ok (s, false) := by
  have verdict := congrArg MediaLink.pairStatus settled
  have reason := congrArg MediaLink.pairEvidence settled
  simp only [linkAfter] at verdict reason
  simp [upsertLink, homed, verdict, reason]

theorem linkAfter_again (existing : Option MediaLink) (later : Int) (fresh : String) :
    linkAfter later fresh mediaId workId status evidence
        (some (linkAfter now uuid mediaId workId status evidence existing)) =
      linkAfter now uuid mediaId workId status evidence existing := by
  cases existing with
  | none =>
    have verdict : nextStatus status status = status := by cases status <;> rfl
    have reason : nextEvidence (some evidence) evidence = evidence := if_pos le_rfl
    simp [linkAfter, pairLink, verdict, reason]
  | some link =>
    have verdict : nextStatus (nextStatus link.pairStatus status) status =
        nextStatus link.pairStatus status := by
      cases link.pairStatus <;> cases status <;> rfl
    simp [linkAfter, verdict, nextEvidence_idem]

end Sides

/-- How a link may change: under its media row and its work, its verdict is settled
once, and its evidence gets no weaker. -/
structure Evolves (link later : MediaLink) : Prop where
  mediaId : later.mediaId = link.mediaId
  workId : later.workId = link.workId
  verdict : later.pairStatus = link.pairStatus ∨
    link.pairStatus = .suggested ∧
      (later.pairStatus = .confirmed ∨ later.pairStatus = .rejected)
  evidence : ∀ evidence, link.pairEvidence = some evidence →
    ∃ stronger, later.pairEvidence = some stronger ∧ evidence.rank ≤ stronger.rank

theorem Evolves.refl (link : MediaLink) : Evolves link link :=
  ⟨rfl, rfl, .inl rfl, fun evidence known => ⟨evidence, known, le_rfl⟩⟩

theorem Evolves.trans {later last : MediaLink} (first : Evolves link later)
    (second : Evolves later last) : Evolves link last := by
  refine ⟨second.mediaId.trans first.mediaId, second.workId.trans first.workId, ?_, ?_⟩
  · rcases first.verdict with same | ⟨suggested, settled⟩
    · rw [← same]
      exact second.verdict
    rcases second.verdict with same | ⟨still, -⟩
    · rw [same]
      exact .inr ⟨suggested, settled⟩
    · rw [still] at settled
      rcases settled with settled | settled <;> cases settled
  · intro evidence known
    obtain ⟨middle, later, weaker⟩ := first.evidence evidence known
    obtain ⟨stronger, last, more⟩ := second.evidence middle later
    exact ⟨stronger, last, weaker.trans more⟩

/-- A write that is no refusal moves a link that was not refused as it may. -/
theorem evolves_linkAfter [Host] (standing : link.pairStatus ≠ .rejected)
    (written : status ≠ .rejected) :
    Evolves link (linkAfter now uuid mediaId workId status evidence (some link)) := by
  refine ⟨rfl, rfl, ?_, ?_⟩
  · simp only [linkAfter]
    cases current : link.pairStatus <;> cases verdict : status <;> simp_all [nextStatus]
  intro current known
  refine ⟨_, rfl, ?_⟩
  simp only [known, nextEvidence]
  split
  · exact le_rfl
  · omega

section Pairs

variable [Host]

/-- Both links were written: neither was of another work or refused. -/
structure Paired (now : Int) (ids : PairIds) (s : Store)
    (anchorMediaId otherMediaId workId : String)
    (status : PairStatus) (evidence : PairEvidence) (s' : Store) : Prop where
  keys : LinkKeys s'
  homed : ∀ mediaId, mediaId = anchorMediaId ∨ mediaId = otherMediaId →
    ∀ link, s.linkForMedia mediaId = some link →
      link.workId = workId ∧ link.pairStatus ≠ .rejected
  links : ∀ mediaId, s'.linkForMedia mediaId =
    if mediaId = anchorMediaId then
      some (linkAfter now ids.anchorLink anchorMediaId workId status evidence
        (s.linkForMedia anchorMediaId))
    else if mediaId = otherMediaId then
      some (linkAfter now ids.otherLink otherMediaId workId status evidence
        (s.linkForMedia otherMediaId))
    else s.linkForMedia mediaId

/-- The call answers that it wrote the pair, or that it stands already. -/
def PairAnswer (workId : String) (status : PairStatus)
    (answer : Except String PairOutcome) : Prop :=
  answer = .ok (.written workId status) ∨ answer = .ok (.unchanged (.alreadySet workId status))

/-- The write changes nothing, whenever it is made in this state. -/
def Stands (s : Store) (anchorMediaId otherMediaId : String) (status : PairStatus)
    (evidence : PairEvidence) : Prop :=
  ∀ now ids, (writePair now ids s anchorMediaId otherMediaId status evidence).1 = s ∧
    ∀ workId verdict, (writePair now ids s anchorMediaId otherMediaId status evidence).2 ≠
      .ok (.written workId verdict)

/-- A pairing write leaves everything as it is, or writes both links. -/
def StandsOrPairs (now : Int) (ids : PairIds) (s : Store) (anchorMediaId otherMediaId : String)
    (status : PairStatus) (evidence : PairEvidence) : Prop :=
  let written := writePair now ids s anchorMediaId otherMediaId status evidence
  Stands s anchorMediaId otherMediaId status evidence ∨
    ∃ workId, Paired now ids s anchorMediaId otherMediaId workId status evidence written.1 ∧
      PairAnswer workId status written.2

omit [Host] in
theorem workOfSide_linked {work : Option String}
    (side : workOfSide s mediaId (s.linkForMedia mediaId) = .ok work)
    (linked : s.linkForMedia mediaId = some link) : work = some link.workId := by
  rw [linked] at side
  cases side
  rfl

omit [Host] in
theorem workOfSide_free (side : workOfSide s mediaId (s.linkForMedia mediaId) = .ok none) :
    s.linkForMedia mediaId = none :=
  Option.eq_none_iff_forall_ne_some.mpr fun _ linked => nomatch workOfSide_linked side linked

variable (keys : LinkKeys s) (fresh : FreshPair ids s) (distinct : anchorMediaId ≠ otherMediaId)
include keys fresh distinct

section Known

variable (homed : ∀ mediaId, mediaId = anchorMediaId ∨ mediaId = otherMediaId →
  ∀ link, s.linkForMedia mediaId = some link → link.workId = workId)
include homed

theorem writeSides_paired (now : Int) (status : PairStatus) (evidence : PairEvidence)
    (standing : refusalOf workId ((s.linkForMedia anchorMediaId).toList ++
      (s.linkForMedia otherMediaId).toList) = none) :
    let written := writeSides now ids s anchorMediaId otherMediaId (s.linkForMedia anchorMediaId)
      (s.linkForMedia otherMediaId) workId status evidence
    Paired now ids s anchorMediaId otherMediaId workId status evidence written.1 ∧
      PairAnswer workId status written.2 := by
  obtain ⟨first, wroteAnchor, firstWrite, firstKeys, firstLinks⟩ :=
    upsertLink_links now status evidence keys fresh.anchor (homed anchorMediaId (.inl rfl))
  have otherLink : first.linkForMedia otherMediaId = s.linkForMedia otherMediaId := by
    rw [firstLinks, if_neg distinct.symm]
  obtain ⟨second, wroteOther, secondWrite, secondKeys, secondLinks⟩ :=
    upsertLink_links now status evidence firstKeys (fresh.unused firstWrite) fun link linked =>
      homed otherMediaId (.inr rfl) link (otherLink ▸ linked)
  rw [otherLink] at secondWrite secondLinks
  have result : writeSides now ids s anchorMediaId otherMediaId (s.linkForMedia anchorMediaId)
      (s.linkForMedia otherMediaId) workId status evidence =
      (second, .ok (if wroteAnchor || wroteOther then .written workId status
        else .unchanged (.alreadySet workId status))) := by
    unfold writeSides
    simp only [standing, firstWrite, secondWrite]
  rw [result]
  refine ⟨⟨secondKeys, ?_, ?_⟩, ?_⟩
  · intro mediaId side link linked
    have own := homed mediaId side link linked
    refine ⟨own, fun refused => ?_⟩
    have among : link ∈ (s.linkForMedia anchorMediaId).toList ++
        (s.linkForMedia otherMediaId).toList := by
      rcases side with rfl | rfl <;> simp [linked]
    simpa [own, refused] using List.find?_eq_none.mp standing link among
  · intro mediaId
    rw [secondLinks, firstLinks]
    by_cases anchor : mediaId = anchorMediaId
    · rw [if_neg (anchor ▸ distinct), if_pos anchor, if_pos anchor]
    · rw [if_neg anchor, if_neg anchor]
  · unfold PairAnswer
    split
    · exact .inl rfl
    · exact .inr rfl

/-- Once the work is known, a refusal about it decides. -/
theorem writePair_known (now : Int)
    (reaches : ∀ now ids, writePair now ids s anchorMediaId otherMediaId status evidence =
      writeSides now ids s anchorMediaId otherMediaId (s.linkForMedia anchorMediaId)
        (s.linkForMedia otherMediaId) workId status evidence) :
    StandsOrPairs now ids s anchorMediaId otherMediaId status evidence := by
  cases refusal : refusalOf workId ((s.linkForMedia anchorMediaId).toList ++
      (s.linkForMedia otherMediaId).toList) with
  | none =>
    right
    rw [reaches]
    exact ⟨workId, writeSides_paired keys fresh distinct homed now status evidence refusal⟩
  | some link =>
    left
    intro now ids
    rw [reaches, writeSides, refusal]
    exact ⟨rfl, fun _ _ => nofun⟩

end Known

theorem writePair_cases (now : Int) (status : PairStatus) (evidence : PairEvidence) :
    StandsOrPairs now ids s anchorMediaId otherMediaId status evidence := by
  cases anchorSide : workOfSide s anchorMediaId (s.linkForMedia anchorMediaId) with
  | error message =>
    left
    intro now ids
    simp [writePair, anchorSide]
  | ok anchorWork =>
    cases otherSide : workOfSide s otherMediaId (s.linkForMedia otherMediaId) with
    | error message =>
      left
      intro now ids
      simp [writePair, anchorSide, otherSide]
    | ok otherWork =>
      have homed {work : String} (anchorIs : ∀ own, anchorWork = some own → own = work)
          (otherIs : ∀ own, otherWork = some own → own = work) (mediaId : String)
          (side : mediaId = anchorMediaId ∨ mediaId = otherMediaId) (link : MediaLink)
          (linked : s.linkForMedia mediaId = some link) : link.workId = work := by
        rcases side with rfl | rfl
        · exact anchorIs _ (workOfSide_linked anchorSide linked)
        · exact otherIs _ (workOfSide_linked otherSide linked)
      cases anchorWork with
      | none =>
        cases otherWork with
        | none =>
          right
          have minted : writePair now ids s anchorMediaId otherMediaId status evidence =
              writeSides now ids (createWork now ids.work s anchorMediaId otherMediaId)
                anchorMediaId otherMediaId (s.linkForMedia anchorMediaId)
                (s.linkForMedia otherMediaId) ids.work status evidence := by
            simp only [writePair, anchorSide, otherSide]
          obtain ⟨paired, answer⟩ := writeSides_paired
            (s := createWork now ids.work s anchorMediaId otherMediaId) ⟨keys.ids, keys.media⟩
            ⟨fresh.anchor, fresh.other, fresh.apart⟩ distinct
              (@homed ids.work nofun nofun) now status
            evidence (by
              have none : (s.linkForMedia anchorMediaId).toList ++
                  (s.linkForMedia otherMediaId).toList = [] := by
                rw [workOfSide_free anchorSide, workOfSide_free otherSide]
                rfl
              exact congrArg (refusalOf ids.work) none)
          rw [minted]
          exact ⟨ids.work, ⟨paired.keys, paired.homed, paired.links⟩, answer⟩
        | some work =>
          refine writePair_known keys fresh distinct (@homed work nofun (by simp)) now
            fun now ids => ?_
          simp only [writePair, anchorSide, otherSide]
      | some work =>
        cases otherWork with
        | none =>
          refine writePair_known keys fresh distinct (@homed work (by simp) nofun) now
            fun now ids => ?_
          simp only [writePair, anchorSide, otherSide]
        | some otherWork =>
          by_cases same : work = otherWork
          · refine writePair_known keys fresh distinct (@homed work (by simp) (by simp [same])) now
              fun now ids => ?_
            simp [writePair, anchorSide, otherSide, same]
          · left
            intro now ids
            simp [writePair, anchorSide, otherSide, same]

omit keys fresh distinct

/-- The link one side of a written pair has. -/
structure SideLink (s s' : Store) (mediaId workId : String) (status : PairStatus)
    (evidence : PairEvidence) (link : MediaLink) : Prop where
  linked : s'.linkForMedia mediaId = some link
  homed : link.workId = workId
  standing : link.pairStatus ≠ .rejected
  settled : ∀ now uuid, linkAfter now uuid mediaId workId status evidence (some link) = link
  confirmed : status = .confirmed → link.pairStatus = .confirmed
  evidenced : link.pairEvidence.isSome = true
  evolves : ∀ old, s.linkForMedia mediaId = some old → Evolves old link

variable (paired : Paired now ids s anchorMediaId otherMediaId workId status evidence s')
include paired

theorem Paired.side
    (written : status ≠ .rejected) (side : mediaId = anchorMediaId ∨ mediaId = otherMediaId) :
    ∃ link, SideLink s s' mediaId workId status evidence link := by
  have linked : ∃ uuid, s'.linkForMedia mediaId =
      some (linkAfter now uuid mediaId workId status evidence (s.linkForMedia mediaId)) := by
    by_cases anchor : mediaId = anchorMediaId
    · exact ⟨ids.anchorLink, by rw [paired.links, if_pos anchor, anchor]⟩
    · have other := side.resolve_left anchor
      exact ⟨ids.otherLink, by rw [paired.links, if_neg anchor, if_pos other, other]⟩
  obtain ⟨uuid, linked⟩ := linked
  cases before : s.linkForMedia mediaId with
  | none =>
    rw [before] at linked
    refine ⟨_, linked, rfl, written, linkAfter_again none, id, rfl, ?_⟩
    intro old found
    rw [before] at found
    cases found
  | some old =>
    rw [before] at linked
    obtain ⟨own, standing⟩ := paired.homed mediaId side old before
    refine ⟨_, linked, own, nextStatus_ne_rejected standing written,
      linkAfter_again (some old), ?_, rfl, ?_⟩
    · rintro rfl
      simp only [linkAfter]
      cases old.pairStatus <;> rfl
    intro link found
    rw [before] at found
    cases found
    exact evolves_linkAfter standing written

/-- A written pair is written. -/
theorem Paired.stands
    (written : status ≠ .rejected) : Stands s' anchorMediaId otherMediaId status evidence := by
  intro later drawn
  obtain ⟨anchor, anchorSide⟩ := paired.side written (.inl rfl)
  obtain ⟨other, otherSide⟩ := paired.side written (.inr rfl)
  have standing : refusalOf workId [anchor, other] = none := by
    simp [refusalOf, anchorSide.standing, otherSide.standing]
  have result : writePair later drawn s' anchorMediaId otherMediaId status evidence =
      (s', .ok (.unchanged (.alreadySet workId status))) := by
    simp only [writePair, anchorSide.linked, otherSide.linked, workOfSide, anchorSide.homed,
      otherSide.homed, ne_eq, not_true_eq_false, if_false, writeSides, Option.toList_some,
      List.singleton_append, standing, upsertLink_again anchorSide.homed (anchorSide.settled _ _),
      upsertLink_again otherSide.homed (otherSide.settled _ _), Bool.or_self, Bool.false_eq_true]
  rw [result]
  exact ⟨rfl, fun _ _ => nofun⟩

end Pairs

section Refusals

/-- The link of a media row after a refusal: only a suggestion is refused. -/
def refusedLink (link : MediaLink) : MediaLink :=
  if link.pairStatus = .suggested then { link with pairStatus := .rejected } else link

theorem evolves_refusedLink (link : MediaLink) : Evolves link (refusedLink link) := by
  unfold refusedLink
  split
  · rename_i suggested
    exact ⟨rfl, rfl, .inr ⟨suggested, .inr rfl⟩, fun evidence known => ⟨evidence, known, le_rfl⟩⟩
  · exact .refl link

theorem rejectLink_links (keys : LinkKeys s) (linked : s.linkForMedia mediaId = some link) :
    LinkKeys (rejectLink s link) ∧ ∀ other, (rejectLink s link).linkForMedia other =
      if other = mediaId then some (refusedLink link) else s.linkForMedia other := by
  unfold rejectLink refusedLink
  split
  · exact ⟨keys.update fun _ _ _ => ⟨rfl, rfl⟩, linkForMedia_updateLink keys linked fun _ => rfl⟩
  · exact ⟨keys, linkForMedia_ite linked⟩

/-- Refusing the link of a media row, if it has one. -/
theorem rejectSide_links (mediaId : String) (keys : LinkKeys s) :
    LinkKeys ((s.linkForMedia mediaId).toList.foldl rejectLink s) ∧ ∀ other,
      ((s.linkForMedia mediaId).toList.foldl rejectLink s).linkForMedia other =
        if other = mediaId then (s.linkForMedia mediaId).map refusedLink
        else s.linkForMedia other := by
  cases linked : s.linkForMedia mediaId with
  | none => exact ⟨keys, linkForMedia_ite linked⟩
  | some link => exact rejectLink_links keys linked

theorem rejectPair_links (keys : LinkKeys s) (distinct : mediaA ≠ mediaB) :
    LinkKeys (rejectPair s mediaA mediaB).1 ∧ ∀ mediaId,
      (rejectPair s mediaA mediaB).1.linkForMedia mediaId =
        if mediaId = mediaA ∨ mediaId = mediaB then (s.linkForMedia mediaId).map refusedLink
        else s.linkForMedia mediaId := by
  obtain ⟨firstKeys, firstLinks⟩ := rejectSide_links mediaA keys
  have otherLink := firstLinks mediaB
  rw [if_neg distinct.symm] at otherLink
  obtain ⟨secondKeys, secondLinks⟩ := rejectSide_links mediaB firstKeys
  rw [otherLink] at secondKeys secondLinks
  have folded : (rejectPair s mediaA mediaB).1 = (s.linkForMedia mediaB).toList.foldl rejectLink
      ((s.linkForMedia mediaA).toList.foldl rejectLink s) := List.foldl_append
  rw [folded]
  refine ⟨secondKeys, fun mediaId => ?_⟩
  rw [secondLinks, firstLinks]
  by_cases first : mediaId = mediaA
  · simp [first, distinct]
  · by_cases second : mediaId = mediaB <;> simp [first, second]

/-- A refusal that finds no suggestion does nothing. -/
theorem rejectPair_of_settled (settled : ∀ mediaId link, mediaId = mediaA ∨ mediaId = mediaB →
      s.linkForMedia mediaId = some link → link.pairStatus ≠ .suggested) :
    (rejectPair s mediaA mediaB).1 = s := by
  refine foldl_rel (R := fun a b : Store => b = a) (f := rejectLink) (fun _ => rfl)
    (fun first second => second.trans first) fun s link member => if_neg ?_
  rcases List.mem_append.mp member with side | side
  · exact settled mediaA link (.inl rfl) (Option.mem_toList.mp side)
  · exact settled mediaB link (.inr rfl) (Option.mem_toList.mp side)

/-- A refused pair is refused: a second refusal finds no suggestion. -/
theorem rejectPair_again (keys : LinkKeys s) (distinct : mediaA ≠ mediaB) :
    (rejectPair (rejectPair s mediaA mediaB).1 mediaA mediaB).1 =
      (rejectPair s mediaA mediaB).1 := by
  refine rejectPair_of_settled fun mediaId link side linked => ?_
  rw [(rejectPair_links keys distinct).2, if_pos side] at linked
  obtain ⟨old, -, rfl⟩ := Option.map_eq_some_iff.mp linked
  unfold refusedLink
  split
  · exact nofun
  · assumption

end Refusals

/-- One pairing call. -/
inductive PairCall where
  | suggest (anchorMediaId otherMediaId : String) (evidence : PairEvidence)
  | confirm (anchorMediaId otherMediaId : String)
  | reject (mediaA mediaB : String)
deriving DecidableEq, Repr

namespace PairCall

/-- The two media rows of a call. -/
def books : PairCall → String × String
  | suggest anchorMediaId otherMediaId _ => (anchorMediaId, otherMediaId)
  | confirm anchorMediaId otherMediaId => (anchorMediaId, otherMediaId)
  | reject mediaA mediaB => (mediaA, mediaB)

/-- The store a call leaves, and its answer. -/
def run [Host] (now : Int) (ids : PairIds) (s : Store) : PairCall → Auto PairOutcome
  | suggest anchorMediaId otherMediaId evidence =>
    suggestPair now ids s anchorMediaId otherMediaId evidence
  | confirm anchorMediaId otherMediaId => confirmPair now ids s anchorMediaId otherMediaId
  | reject mediaA mediaB => ((rejectPair s mediaA mediaB).1, .ok (rejectPair s mediaA mediaB).2)

end PairCall

section System

variable [Host]

/-- A call about two media rows, with new identities for the links it may add. -/
inductive PairStep (s : Store) : Store → Prop where
  | call (now : Int) {ids : PairIds} (call : PairCall) (fresh : FreshPair ids s)
      (distinct : call.books.1 ≠ call.books.2) : PairStep s (call.run now ids s).1

/-- Runs from an account without links, whatever its aliases prove. -/
def pairSystem : System Store where
  Initial s := s.links = []
  Step := PairStep

/-- The invariant of a run: keys, and evidence on every link. -/
structure PairInvariant (s : Store) : Prop where
  keys : LinkKeys s
  evidenced : ∀ mediaId link, s.linkForMedia mediaId = some link →
    link.pairEvidence.isSome = true

/-- Each link of a media row is still there, changed as it may. -/
def LinksEvolve (s s' : Store) : Prop :=
  ∀ mediaId link, s.linkForMedia mediaId = some link →
    ∃ later, s'.linkForMedia mediaId = some later ∧ Evolves link later

omit [Host] in
theorem LinksEvolve.refl (s : Store) : LinksEvolve s s :=
  fun _ link linked => ⟨link, linked, .refl link⟩

omit [Host] in
theorem LinksEvolve.trans {s'' : Store} (first : LinksEvolve s s') (second : LinksEvolve s' s'') :
    LinksEvolve s s'' := by
  intro mediaId link linked
  obtain ⟨middle, found, evolves⟩ := first mediaId link linked
  obtain ⟨last, stored, more⟩ := second mediaId middle found
  exact ⟨last, stored, evolves.trans more⟩

theorem Paired.invariant
    (paired : Paired now ids s anchorMediaId otherMediaId workId status evidence s')
    (held : PairInvariant s) (written : status ≠ .rejected) :
    PairInvariant s' ∧ LinksEvolve s s' := by
  have elsewhere (mediaId : String) (apart : ¬ (mediaId = anchorMediaId ∨ mediaId = otherMediaId)) :
      s'.linkForMedia mediaId = s.linkForMedia mediaId := by
    rw [paired.links, if_neg fun same => apart (.inl same), if_neg fun same => apart (.inr same)]
  refine ⟨⟨paired.keys, ?_⟩, ?_⟩
  · intro mediaId link linked
    by_cases side : mediaId = anchorMediaId ∨ mediaId = otherMediaId
    · obtain ⟨sideLink, fact⟩ := paired.side written side
      rw [fact.linked] at linked
      cases linked
      exact fact.evidenced
    · exact held.evidenced mediaId link (elsewhere mediaId side ▸ linked)
  · intro mediaId link linked
    by_cases side : mediaId = anchorMediaId ∨ mediaId = otherMediaId
    · obtain ⟨sideLink, fact⟩ := paired.side written side
      exact ⟨sideLink, fact.linked, fact.evolves link linked⟩
    · exact ⟨link, (elsewhere mediaId side).trans linked, .refl link⟩

/-- What a suggestion or a confirmation does. -/
theorem PairInvariant.writePair (now : Int) (status : PairStatus) (evidence : PairEvidence)
    (held : PairInvariant s)
    (fresh : FreshPair ids s) (distinct : anchorMediaId ≠ otherMediaId)
    (written : status ≠ .rejected) :
    let call := fun now ids s => writePair now ids s anchorMediaId otherMediaId status evidence
    PairInvariant (call now ids s).1 ∧ LinksEvolve s (call now ids s).1 ∧
      (∀ later drawn, (call later drawn (call now ids s).1).1 = (call now ids s).1) ∧
      ∀ workId verdict, (call now ids s).2 = .ok (.written workId verdict) →
        ∀ mediaId, mediaId = anchorMediaId ∨ mediaId = otherMediaId →
          ∃ link, SideLink s (call now ids s).1 mediaId workId status evidence link := by
  intro call
  rcases writePair_cases held.keys fresh distinct now status evidence with
    stands | ⟨workId, paired, answer⟩
  · have same : (call now ids s).1 = s := (stands now ids).1
    rw [same]
    exact ⟨held, .refl s, fun later drawn => (stands later drawn).1,
      fun workId verdict wrote => absurd wrote ((stands now ids).2 workId verdict)⟩
  obtain ⟨kept, evolves⟩ := paired.invariant held written
  refine ⟨kept, evolves, fun later drawn => (paired.stands written later drawn).1, ?_⟩
  intro other verdict wrote mediaId side
  have same : other = workId := by
    have answer : PairAnswer workId status (call now ids s).2 := answer
    rw [wrote] at answer
    rcases answer with answer | answer <;> cases answer
    rfl
  rw [same]
  exact paired.side written side

omit [Host] in
theorem PairInvariant.rejectPair (held : PairInvariant s) (distinct : mediaA ≠ mediaB) :
    PairInvariant (rejectPair s mediaA mediaB).1 ∧
      LinksEvolve s (Models.rejectPair s mediaA mediaB).1 := by
  obtain ⟨keys, links⟩ := rejectPair_links held.keys distinct
  refine ⟨⟨keys, ?_⟩, ?_⟩
  · intro mediaId link linked
    rw [links] at linked
    split at linked
    · obtain ⟨old, found, rfl⟩ := Option.map_eq_some_iff.mp linked
      have known := held.evidenced mediaId old found
      unfold refusedLink
      split <;> exact known
    · exact held.evidenced mediaId link linked
  · intro mediaId link linked
    rw [links]
    split
    · exact ⟨refusedLink link, by rw [linked]; rfl, evolves_refusedLink link⟩
    · exact ⟨link, linked, .refl link⟩

/-- What any call does. -/
theorem PairInvariant.call {call : PairCall} (held : PairInvariant s) (fresh : FreshPair ids s)
    (distinct : call.books.1 ≠ call.books.2) :
    PairInvariant (call.run now ids s).1 ∧ LinksEvolve s (call.run now ids s).1 ∧
      ∀ later drawn, (call.run later drawn (call.run now ids s).1).1 = (call.run now ids s).1 := by
  cases call with
  | suggest anchorMediaId otherMediaId evidence =>
    obtain ⟨kept, evolves, again, -⟩ :=
      held.writePair now .suggested evidence fresh distinct nofun
    exact ⟨kept, evolves, again⟩
  | confirm anchorMediaId otherMediaId =>
    obtain ⟨kept, evolves, again, -⟩ :=
      held.writePair now .confirmed .manual fresh distinct nofun
    exact ⟨kept, evolves, again⟩
  | reject mediaA mediaB =>
    obtain ⟨kept, evolves⟩ := held.rejectPair distinct
    exact ⟨kept, evolves, fun _ _ => rejectPair_again held.keys distinct⟩

theorem pairInvariant_of_reachable (reachable : pairSystem.Reachable s) : PairInvariant s := by
  refine reachable.invariant (fun s start => ?_) fun s next held
    (transition : PairStep s next) => ?_
  · have empty : s.links = [] := start
    exact ⟨⟨by simp [empty], by simp [empty]⟩, by simp [linkForMedia, empty, lookup]⟩
  · cases transition with
    | call now call fresh distinct => exact (held.call fresh distinct).1

/-- In every run of pairing calls: a media row has one link; a link keeps its work,
its verdict is settled once and its evidence gets no weaker; a call made again
changes nothing; and a written pair links both media rows to its work, confirmed
by a confirmation. -/
theorem pairing_state_machine :
    (∀ s, pairSystem.Reachable s → (s.links.map MediaLink.mediaId).Nodup ∧
      ∀ link ∈ s.links, link.pairEvidence.isSome = true) ∧
    (∀ s s', pairSystem.Reachable s → pairSystem.Steps s s' →
      ∀ link ∈ s.links, ∃ later ∈ s'.links, Evolves link later) ∧
    (∀ s (call : PairCall) now ids, pairSystem.Reachable s → FreshPair ids s →
      call.books.1 ≠ call.books.2 →
      ∀ later drawn, (call.run later drawn (call.run now ids s).1).1 = (call.run now ids s).1) ∧
    (∀ s (call : PairCall) now ids, pairSystem.Reachable s → FreshPair ids s →
      call.books.1 ≠ call.books.2 → (∀ mediaA mediaB, call ≠ .reject mediaA mediaB) →
      ∀ workId verdict, (call.run now ids s).2 = .ok (.written workId verdict) →
        ∃ anchor other, (call.run now ids s).1.linkForMedia call.books.1 = some anchor ∧
          (call.run now ids s).1.linkForMedia call.books.2 = some other ∧
          anchor.workId = workId ∧ other.workId = workId ∧
          ((∃ anchorMediaId otherMediaId, call = .confirm anchorMediaId otherMediaId) →
            pairStatus anchor.pairStatus other.pairStatus = .confirmed)) := by
  refine ⟨?_, ?_, ?_, ?_⟩
  · intro s reachable
    have held := pairInvariant_of_reachable reachable
    exact ⟨held.keys.media, fun link member => held.evidenced link.mediaId link
      ((lookup_eq_some_iff held.keys.media).mpr ⟨member, rfl⟩)⟩
  · intro s s' reachable steps link member
    have evolve : LinksEvolve s s' := steps.rel .refl .trans
      (fun s next reachable (transition : PairStep s next) => by
        cases transition with
        | call now call fresh distinct =>
          exact ((pairInvariant_of_reachable reachable).call fresh distinct).2.1) reachable
    have linked : s.linkForMedia link.mediaId = some link :=
      (lookup_eq_some_iff (pairInvariant_of_reachable reachable).keys.media).mpr ⟨member, rfl⟩
    obtain ⟨later, found, evolves⟩ := evolve link.mediaId link linked
    exact ⟨later, lookup_mem found, evolves⟩
  · intro s call now ids reachable fresh distinct
    exact ((pairInvariant_of_reachable reachable).call fresh distinct).2.2
  intro s call now ids reachable fresh distinct write workId verdict wrote
  have held := pairInvariant_of_reachable reachable
  cases call with
  | suggest anchorMediaId otherMediaId evidence =>
    obtain ⟨-, -, -, sides⟩ :=
      held.writePair now .suggested evidence fresh distinct nofun
    obtain ⟨anchor, anchorSide⟩ := sides workId verdict wrote _ (.inl rfl)
    obtain ⟨other, otherSide⟩ := sides workId verdict wrote _ (.inr rfl)
    exact ⟨anchor, other, anchorSide.linked, otherSide.linked, anchorSide.homed,
      otherSide.homed, nofun⟩
  | confirm anchorMediaId otherMediaId =>
    obtain ⟨-, -, -, sides⟩ :=
      held.writePair now .confirmed .manual fresh distinct nofun
    obtain ⟨anchor, anchorSide⟩ := sides workId verdict wrote _ (.inl rfl)
    obtain ⟨other, otherSide⟩ := sides workId verdict wrote _ (.inr rfl)
    refine ⟨anchor, other, anchorSide.linked, otherSide.linked, anchorSide.homed,
      otherSide.homed, fun _ => ?_⟩
    rw [anchorSide.confirmed rfl, otherSide.confirmed rfl]
    rfl
  | reject mediaA mediaB => exact absurd rfl (write mediaA mediaB)

end System

section Frame

variable {status : Option PairStatus} {row : MediaLink}

/-- A link is reported to a media row that has one of the same work, not refused, when the status of
the pair is asked for. -/
theorem mem_linkedMedia (keys : LinkKeys s) : row ∈ Models.linkedMedia s mediaId status ↔
    ∃ link, s.linkForMedia mediaId = some link ∧ s.linkForMedia row.mediaId = some row ∧
      row.workId = link.workId ∧ row.mediaId ≠ mediaId ∧ link.pairStatus ≠ .rejected ∧
      (pairStatus link.pairStatus row.pairStatus).asked status = true := by
  have stored : s.linkForMedia row.mediaId = some row ↔ row ∈ s.links :=
    (lookup_eq_some_iff keys.media).trans (and_iff_left rfl)
  unfold Models.linkedMedia
  rw [stored]
  split
  · simp [*]
  rename_i link linked
  split
  · simp [*]
  simp only [List.mem_filter, mem_orderBy, linked, Option.some.injEq, decide_eq_true_eq]
  constructor
  · rintro ⟨⟨member, work, other⟩, asked⟩
    exact ⟨link, rfl, member, work, other, ‹_›, asked⟩
  · rintro ⟨_, rfl, member, work, other, -, asked⟩
    exact ⟨⟨member, work, other⟩, asked⟩

/-- The work a media row is linked to. -/
def linkedWork (s : Store) (mediaId : String) : Option String :=
  (s.linkForMedia mediaId).map MediaLink.workId

theorem linkedWork_of_mem (keys : LinkKeys s) (seen : row ∈ Models.linkedMedia s mediaId status) :
    row.mediaId ≠ mediaId ∧ linkedWork s mediaId = some row.workId ∧
      linkedWork s row.mediaId = some row.workId := by
  obtain ⟨link, linked, stored, work, other, -⟩ := (mem_linkedMedia keys).mp seen
  exact ⟨other, by simp [linkedWork, linked, work], by simp [linkedWork, stored]⟩

/-- A call about a pair touches that pair only: it changes links of media rows of one work only, and
what is reported between two other media rows stays. -/
structure TouchesPair (s s' : Store) (mediaA mediaB : String) : Prop where
  work : s'.links ≠ s.links →
    ∃ workId, linkedWork s mediaA = some workId ∧ linkedWork s mediaB = some workId
  others : ∀ mediaId row status,
    ¬ (mediaId = mediaA ∧ row.mediaId = mediaB ∨ mediaId = mediaB ∧ row.mediaId = mediaA) →
      (row ∈ Models.linkedMedia s' mediaId status ↔ row ∈ Models.linkedMedia s mediaId status)

/-- The work of a suggestion of either media row has exactly the two of them. -/
def PairAlone (s : Store) (mediaA mediaB : String) : Prop :=
  ∀ mediaId link, mediaId = mediaA ∨ mediaId = mediaB → s.linkForMedia mediaId = some link →
    link.pairStatus = .suggested →
      ∀ other, linkedWork s other = some link.workId ↔ other = mediaA ∨ other = mediaB

/-- Nothing is reported between a media row of a work and one of another. -/
theorem not_mem_linkedMedia (keys : LinkKeys s)
    (alone : ∀ other, linkedWork s other = some workId ↔ other = mediaA ∨ other = mediaB)
    (apart : ¬ (mediaId = mediaA ∧ row.mediaId = mediaB ∨ mediaId = mediaB ∧ row.mediaId = mediaA))
    (touched : (mediaId = mediaA ∨ mediaId = mediaB) ∨ row.mediaId = mediaA ∨
      row.mediaId = mediaB) :
    row ∉ Models.linkedMedia s mediaId status := by
  intro seen
  obtain ⟨other, own, work⟩ := linkedWork_of_mem keys seen
  have same : row.workId = workId := by
    rcases touched with side | side
    · exact Option.some.inj (own.symm.trans ((alone _).mpr side))
    · exact Option.some.inj (work.symm.trans ((alone _).mpr side))
  rw [same] at own work
  rcases (alone _).mp own with here | here <;> rcases (alone _).mp work with there | there
  · exact other (there.trans here.symm)
  · exact apart (.inl ⟨here, there⟩)
  · exact apart (.inr ⟨here, there⟩)
  · exact other (there.trans here.symm)

/-- A refusal touches its pair only exactly when no suggestion it refuses belongs to another. -/
theorem rejectPair_touches_iff [Host] (reachable : pairSystem.Reachable s)
    (distinct : mediaA ≠ mediaB) :
    TouchesPair s (rejectPair s mediaA mediaB).1 mediaA mediaB ↔ PairAlone s mediaA mediaB := by
  have keys := (pairInvariant_of_reachable reachable).keys
  obtain ⟨keys', links⟩ := rejectPair_links keys distinct
  constructor
  · intro touches mediaId link side linked suggested
    have refused : (rejectPair s mediaA mediaB).1.linkForMedia mediaId =
        some { link with pairStatus := .rejected } := by
      rw [links, if_pos side, linked]
      simp [refusedLink, suggested]
    have changed : (rejectPair s mediaA mediaB).1.links ≠ s.links := by
      intro same
      rw [linkForMedia, same, ← linkForMedia, linked] at refused
      rw [Option.some.inj refused] at suggested
      cases suggested
    obtain ⟨workId, first, second⟩ := touches.work changed
    have own : linkedWork s mediaId = some link.workId := by rw [linkedWork, linked]; rfl
    obtain rfl : workId = link.workId := by
      rcases side with rfl | rfl
      · exact Option.mem_unique first own
      · exact Option.mem_unique second own
    intro other
    constructor
    · intro joined
      by_contra third
      obtain ⟨row, stored, work⟩ := Option.map_eq_some_iff.mp joined
      obtain rfl := lookup_key stored
      -- Whatever its verdict, the third row was reported to the refused one before.
      have seen : row ∈ Models.linkedMedia s mediaId
        (some (pairStatus link.pairStatus row.pairStatus)) :=
        (mem_linkedMedia keys).mpr ⟨link, linked, stored, work, fun same => third (same ▸ side),
          by simp [suggested], by simp [PairStatus.asked]⟩
      have kept := (touches.others mediaId row _ (fun pair => third (by tauto))).mpr seen
      obtain ⟨later, found, -, -, -, standing, -⟩ := (mem_linkedMedia keys').mp kept
      rw [refused] at found
      cases found
      exact standing rfl
    · rintro (rfl | rfl)
      · exact first
      · exact second
  · intro alone
    by_cases settled : ∀ mediaId link, mediaId = mediaA ∨ mediaId = mediaB →
        s.linkForMedia mediaId = some link → link.pairStatus ≠ .suggested
    · rw [rejectPair_of_settled settled]
      exact ⟨fun changed => absurd rfl changed, fun _ _ _ _ => Iff.rfl⟩
    push Not at settled
    obtain ⟨side, link, here, linked, suggested⟩ := settled
    have alone := alone side link here linked suggested
    have works (other : String) :
        linkedWork (rejectPair s mediaA mediaB).1 other = linkedWork s other := by
      unfold linkedWork
      rw [links]
      split
      · rw [Option.map_map]
        exact Option.map_congr fun link _ => (evolves_refusedLink link).workId
      · rfl
    refine ⟨fun _ => ⟨link.workId, (alone _).mpr (.inl rfl), (alone _).mpr (.inr rfl)⟩, ?_⟩
    intro mediaId row status apart
    by_cases touched :
        (mediaId = mediaA ∨ mediaId = mediaB) ∨ row.mediaId = mediaA ∨ row.mediaId = mediaB
    · exact iff_of_false
        (not_mem_linkedMedia keys' (fun other => by rw [works]; exact alone other) apart touched)
        (not_mem_linkedMedia keys alone apart touched)
    · rw [not_or] at touched
      rw [mem_linkedMedia keys', mem_linkedMedia keys, links, links, if_neg touched.1,
        if_neg touched.2]

end Frame

section Sample

local instance pairingHost : Host := Host.sample

/-- A pair the server suggested to an account without links. -/
def sampleGuess : Store :=
  (PairCall.run (sampleHour 1) ⟨"work", "left", "right"⟩ (Store.empty "user")
    (.suggest "text" "audio" .sameDrop)).1

theorem sampleGuess_reachable : pairSystem.Reachable sampleGuess := by
  have start : pairSystem.Reachable (Store.empty "user") := .initial rfl
  exact start.step (.call (sampleHour 1) (.suggest "text" "audio" .sameDrop)
    ⟨by decide, by decide, by decide⟩ (by decide))

theorem pairing_state_machine_sample :
    ∃ anchor other,
      (PairCall.run (sampleHour 2) ⟨"none", "none", "other"⟩ sampleGuess
        (.confirm "audio" "text")).1.links = [other, anchor] ∧
      anchor.workId = "work" ∧ other.workId = "work" ∧
      pairStatus anchor.pairStatus other.pairStatus = .confirmed := by
  obtain ⟨anchor, other, anchorLink, otherLink, anchorWork, otherWork, confirmed⟩ :=
    pairing_state_machine.2.2.2 sampleGuess (.confirm "audio" "text") (sampleHour 2)
      ⟨"none", "none", "other"⟩ sampleGuess_reachable
        ⟨by decide +kernel, by decide +kernel, by decide⟩ (by decide)
      (fun _ _ => nofun) "work" .confirmed (by decide +kernel)
  cases anchorLink
  cases otherLink
  exact ⟨_, _, by decide +kernel, anchorWork, otherWork, confirmed ⟨_, _, rfl⟩⟩

/-- A third book joins the guess. -/
def sampleThird : Store :=
  (PairCall.run (sampleHour 2) ⟨"none", "none", "third"⟩ sampleGuess
    (.suggest "text" "comic" .sameDrop)).1

/-- Another guess stands beside it. -/
def sampleBeside : Store :=
  (PairCall.run (sampleHour 2) ⟨"other", "far", "away"⟩ sampleGuess
    (.suggest "map" "key" .sameDrop)).1

theorem rejectPair_touches_sample :
    TouchesPair sampleGuess (rejectPair sampleGuess "text" "audio").1 "text" "audio" := by
  refine (rejectPair_touches_iff sampleGuess_reachable (by decide)).mpr ?_
  obtain ⟨left, right, links, text, audio, leftWork, rightWork⟩ :
      ∃ left right, sampleGuess.links = [left, right] ∧ left.mediaId = "text" ∧
        right.mediaId = "audio" ∧ left.workId = "work" ∧ right.workId = "work" :=
    ⟨_, _, rfl, rfl, rfl, rfl, rfl⟩
  have works (other : String) :
      linkedWork sampleGuess other =
        if other = "text" ∨ other = "audio" then some "work" else none := by
    simp only [linkedWork, linkForMedia, links, lookup_cons, text, audio]
    by_cases first : "text" = other
    · simp [first, leftWork]
    · by_cases second : "audio" = other
      · simp [← second, rightWork]
      · simp [first, second, Ne.symm first, Ne.symm second, lookup]
  intro mediaId link side linked _ other
  have work : some link.workId = some "work" := by
    have own := works mediaId
    rwa [linkedWork, linked, if_pos side] at own
  rw [work, works]
  split <;> simp [*]

/-- A refusal takes a third book from a suggestion, and refuses suggestions of two works. -/
theorem refusal_touches_others :
    (pairSystem.Reachable sampleThird ∧
      ¬ TouchesPair sampleThird (rejectPair sampleThird "text" "audio").1 "text" "audio") ∧
    pairSystem.Reachable sampleBeside ∧
      ¬ TouchesPair sampleBeside (rejectPair sampleBeside "text" "map").1 "text" "map" := by
  refine ⟨⟨?_, fun touches => ?_⟩, ?_, fun touches => ?_⟩
  · exact sampleGuess_reachable.step (.call (sampleHour 2) (.suggest "text" "comic" .sameDrop)
      ⟨by decide +kernel, by decide +kernel, by decide⟩ (by decide))
  · obtain ⟨row, seen, third⟩ : ∃ row ∈ Models.linkedMedia sampleThird "audio" none,
        row.mediaId = "comic" := by decide +kernel
    have kept := (touches.others "audio" row none (by simp [third])).mpr seen
    have gone : Models.linkedMedia (rejectPair sampleThird "text" "audio").1 "audio" none = [] := by
      decide +kernel
    rw [gone] at kept
    exact absurd kept List.not_mem_nil
  · exact sampleGuess_reachable.step (.call (sampleHour 2) (.suggest "map" "key" .sameDrop)
      ⟨by decide +kernel, by decide +kernel, by decide⟩ (by decide))
  · obtain ⟨workId, text, map⟩ := touches.work (by decide +kernel)
    exact absurd (text.trans map.symm) (by decide +kernel)

end Sample
end Coppice.LiseurSync
