import Mathlib.Data.Prod.Lex
import Coppice.LiseurSync.Lane
import Coppice.LiseurSync.Works

/-!
# What the link writers do

Resolving a work and pairing two books write links through single edits: a link
is added, its verdict or provenance changes, or it takes another digest. An edit
says whether it can change which book a work's records belong on; only then does
its writer replay the work. Every property of the link writers is read off these
edits.
-/

namespace Coppice.LiseurSync

open Coppice.Std Models Models.Store List

variable {s s' s'' : Store} {workId mediaId : String}

section Ranking

variable {row : StoredAnnotation}

/-- Two links that rank alike for every record. -/
structure SameRank (left right : MediaLink) : Prop where
  id : left.id = right.id
  mediaId : left.mediaId = right.mediaId
  workId : left.workId = right.workId
  editionSha : left.editionSha = right.editionSha
  createdAt : left.createdAt = right.createdAt

theorem SameRank.refl (link : MediaLink) : SameRank link link := ⟨rfl, rfl, rfl, rfl, rfl⟩

theorem linkedAnnotationMediaId_congr (links : linksOf s' row.workId = linksOf s row.workId)
    (media : s'.media = s.media) :
    linkedAnnotationMediaId s' row = linkedAnnotationMediaId s row := by
  have order : projectionLinkLe s' = projectionLinkLe s := by
    unfold projectionLinkLe isAudio
    rw [media]
  simp only [linkedAnnotationMediaId, links, order]

/-- Links rewritten in place without touching what they rank by send every
record to the same book. -/
theorem linkedAnnotationMediaId_map {g : MediaLink → MediaLink}
    (rank : ∀ link ∈ s.links, SameRank (g link) link) (links : s'.links = s.links.map g)
    (media : s'.media = s.media) :
    linkedAnnotationMediaId s' row = linkedAnnotationMediaId s row := by
  have own : linksOf s' row.workId = (linksOf s row.workId).map g := by
    simp only [linksOf, links, filter_map]
    congr 1
    refine filter_congr fun link member => ?_
    simp [(rank link member).workId]
  have order (left : MediaLink) (leftMember : left ∈ s.links) (right : MediaLink)
      (rightMember : right ∈ s.links) :
      projectionLinkLe s' (row.editionSha.getD "") (g left) (g right) =
        projectionLinkLe s (row.editionSha.getD "") left right := by
    have leftRank := rank left leftMember
    have rightRank := rank right rightMember
    unfold projectionLinkLe namesEdition isAudio
    rw [media, leftRank.id, leftRank.mediaId, leftRank.editionSha, leftRank.createdAt,
      rightRank.id, rightRank.mediaId, rightRank.editionSha, rightRank.createdAt]
  have member {link : MediaLink} (among : link ∈ linksOf s row.workId) : link ∈ s.links :=
    (mem_filter.mp among).1
  have sorted := map_insertionSort
    (fun left right => projectionLinkLe s (row.editionSha.getD "") left right = true)
    (fun left right => projectionLinkLe s' (row.editionSha.getD "") left right = true) g
    (linksOf s row.workId) fun left leftOwn right rightOwn => by
      rw [order left (member leftOwn) right (member rightOwn)]
  simp only [linkedAnnotationMediaId, own, ← sorted, head?_map, Option.map_map]
  refine Option.map_congr fun link head => (rank link (member ?_)).mediaId
  exact (mem_insertionSort _).mp (mem_of_mem_head? head)

/-- What links rank by: another edition after the record's own, an audiobook
after a text, then age, then identity. -/
def linkRank (s : Store) (editionSha : String) (link : MediaLink) :
    Bool ×ₗ Bool ×ₗ String ×ₗ String :=
  toLex (!namesEdition editionSha link,
    toLex (s.isAudio link.mediaId, toLex (link.createdAt, link.id)))

theorem projectionLinkLe_iff (s : Store) (editionSha : String) (left right : MediaLink) :
    projectionLinkLe s editionSha left right = true ↔
      linkRank s editionSha left ≤ linkRank s editionSha right := by
  simp only [projectionLinkLe, linkRank, Prod.Lex.le_iff, ofLex_toLex]
  cases namesEdition editionSha left <;> cases namesEdition editionSha right <;>
    cases s.isAudio left.mediaId <;> cases s.isAudio right.mediaId <;>
    by_cases same : left.createdAt = right.createdAt <;> simp [same]

/-- The link a record belongs on: none of its work ranks before it. -/
def RankedFirst (s : Store) (row : StoredAnnotation) (link : MediaLink) : Prop :=
  link ∈ linksOf s row.workId ∧
    ∀ other ∈ linksOf s row.workId,
      projectionLinkLe s (row.editionSha.getD "") link other = true

theorem linkedAnnotationMediaId_ranked
    (linked : linkedAnnotationMediaId s row = some mediaId) :
    ∃ link, RankedFirst s row link ∧ link.mediaId = mediaId := by
  obtain ⟨link, head, rfl⟩ := Option.map_eq_some_iff.mp linked
  obtain ⟨rest, sorted⟩ := head?_eq_some_iff.mp head
  let le : MediaLink → MediaLink → Prop := fun left right =>
    projectionLinkLe s (row.editionSha.getD "") left right = true
  have total : Std.Total le := ⟨fun left right => by
    simp only [le, projectionLinkLe_iff]
    exact le_total _ _⟩
  have trans : IsTrans MediaLink le := ⟨fun left middle right first second => by
    simp only [le, projectionLinkLe_iff] at *
    exact first.trans second⟩
  have ordered : ((linksOf s row.workId).insertionSort le).Pairwise le :=
    pairwise_insertionSort le _
  have member {other : MediaLink} : other ∈ linksOf s row.workId ↔ other ∈ link :: rest := by
    rw [← sorted]
    exact (mem_insertionSort _).symm
  refine ⟨link, ⟨member.mpr mem_cons_self, fun other among => ?_⟩, rfl⟩
  rw [show (linksOf s row.workId).insertionSort le = link :: rest from sorted] at ordered
  rcases mem_cons.mp (member.mp among) with rfl | later
  · exact (total.total other other).elim id id
  · exact (pairwise_cons.mp ordered).1 other later

theorem linkedAnnotationMediaId_eq_none :
    linkedAnnotationMediaId s row = none ↔ linksOf s row.workId = [] := by
  simp only [linkedAnnotationMediaId, Option.map_eq_none_iff, head?_eq_none_iff]
  constructor
  · intro empty
    have length := congrArg List.length empty
    rw [length_insertionSort] at length
    exact eq_nil_of_length_eq_zero length
  · intro empty
    rw [empty]
    rfl

end Ranking

/-- Link rows have identities of their own, and a media row has one link. -/
structure LinkKeys (s : Store) : Prop where
  ids : (s.links.map MediaLink.id).Nodup
  media : (s.links.map MediaLink.mediaId).Nodup

/-- Only works, editions, aliases and links differ. -/
def RegistryOnly (s s' : Store) : Prop :=
  s' = { s with
    works := s'.works, editions := s'.editions, aliases := s'.aliases, links := s'.links }

/-- One edit of the registry of a work, and whether it can change where the
records of the work belong. -/
inductive LinkEdit (workId : String) (s : Store) : Bool → Store → Prop where
  | registered {works : List Work} {editions : List Edition} {aliases : List Alias} :
      LinkEdit workId s false
        { s with works := works, editions := editions, aliases := aliases }
  | added {link : MediaLink} (own : link.workId = workId)
      (unlinked : s.linkForMedia link.mediaId = none)
      (fresh : ∀ other ∈ s.links, other.id ≠ link.id) :
      LinkEdit workId s true { s with links := s.links ++ [link] }
  | judged (id : String) {f : MediaLink → MediaLink}
      (keeps : ∀ link ∈ s.links, link.id = id → SameRank (f link) link) :
      LinkEdit workId s false (updateLink s id f)
  | redigested {link : MediaLink} {f : MediaLink → MediaLink} (member : link ∈ s.links)
      (own : link.workId = workId)
      (keeps : ∀ link, (f link).id = link.id ∧ (f link).mediaId = link.mediaId ∧
        (f link).workId = link.workId) :
      LinkEdit workId s true (updateLink s link.id f)

/-- Any number of edits; together they can change where records belong when one
of them can. -/
inductive LinkEdits (workId : String) (s : Store) : Bool → Store → Prop where
  | refl : LinkEdits workId s false s
  | tail {changed again : Bool} {middle last : Store} (edits : LinkEdits workId s changed middle)
      (edit : LinkEdit workId middle again last) : LinkEdits workId s (changed || again) last

/-- A record goes to the book it went to, unless its work was changed. -/
def Reranks (workId : String) (changed : Bool) (s s' : Store) : Prop :=
  ∀ row : StoredAnnotation, (changed = true → row.workId ≠ workId) →
    linkedAnnotationMediaId s' row = linkedAnnotationMediaId s row

section Edits

variable {changed again : Bool}

theorem LinkKeys.of_links (keys : LinkKeys s) (same : s'.links = s.links) : LinkKeys s' :=
  ⟨by rw [same]; exact keys.ids, by rw [same]; exact keys.media⟩

theorem RegistryOnly.refl (s : Store) : RegistryOnly s s := rfl

theorem RegistryOnly.trans (first : RegistryOnly s s') (second : RegistryOnly s' s'') :
    RegistryOnly s s'' := by
  unfold RegistryOnly at *
  rw [second, first]

theorem LinkEdit.frame (edit : LinkEdit workId s changed s') : RegistryOnly s s' := by
  cases edit <;> rfl

/-- Rewriting a link under its identity and media row keeps both keys. -/
theorem LinkKeys.update {id : String} {f : MediaLink → MediaLink} (keys : LinkKeys s)
    (keeps : ∀ link ∈ s.links, link.id = id →
      (f link).id = link.id ∧ (f link).mediaId = link.mediaId) : LinkKeys (updateLink s id f) := by
  have same (column : MediaLink → String)
      (kept : ∀ link ∈ s.links, link.id = id → column (f link) = column link) :
      (updateLink s id f).links.map column = s.links.map column := by
    simp only [updateLink, updateAt, map_map]
    refine map_congr_left fun link member => ?_
    by_cases own : link.id = id
    · simp [own, kept link member own]
    · simp [own]
  refine ⟨?_, ?_⟩
  · rw [same _ fun link member own => (keeps link member own).1]
    exact keys.ids
  · rw [same _ fun link member own => (keeps link member own).2]
    exact keys.media

theorem LinkEdit.keys (edit : LinkEdit workId s changed s') (keys : LinkKeys s) : LinkKeys s' := by
  cases edit with
  | registered => exact ⟨keys.ids, keys.media⟩
  | @added link own unlinked fresh =>
    exact ⟨nodup_concat keys.ids fresh, nodup_added keys.media unlinked⟩
  | judged id keeps =>
    exact keys.update fun link member own =>
      ⟨(keeps link member own).id, (keeps link member own).mediaId⟩
  | redigested member own keeps =>
    exact keys.update fun link _ _ => ⟨(keeps link).1, (keeps link).2.1⟩

/-- An edit that cannot change where records belong does not, and one that can
changes it for one work only. -/
theorem LinkEdit.reranks (edit : LinkEdit workId s changed s') (keys : LinkKeys s) :
    Reranks workId changed s s' := by
  intro row other
  cases edit with
  | registered => rfl
  | @added link own unlinked fresh =>
    refine linkedAnnotationMediaId_congr ?_ rfl
    have apart : link.workId ≠ row.workId := fun same => other rfl (same.symm.trans own)
    simp [linksOf, filter_append, apart]
  | @judged id f keeps =>
    refine linkedAnnotationMediaId_map (g := fun link => if link.id = id then f link else link)
      (fun link member => ?_) rfl rfl
    split
    · rename_i own
      exact keeps link member own
    · exact .refl link
  | @redigested link f member own keeps =>
    refine linkedAnnotationMediaId_congr ?_ rfl
    simp only [linksOf, updateLink, updateAt, filter_map]
    -- Only the link itself has its identity, and it belongs to the edited work.
    have apart : ∀ left ∈ linksOf s row.workId, left.id ≠ link.id := by
      intro left among same
      obtain ⟨stored, work⟩ := mem_filter.mp among
      rw [inj_on_of_nodup_map keys.ids stored member same] at work
      exact other rfl ((of_decide_eq_true work).symm.trans own)
    have unmoved : (fun left : MediaLink => decide (left.workId = row.workId)) ∘
        (fun left => if left.id = link.id then f left else left) =
        fun left => decide (left.workId = row.workId) := by
      funext left
      by_cases same : left.id = link.id <;> simp [same, (keeps left).2.2]
    rw [unmoved]
    calc (linksOf s row.workId).map (fun left => if left.id = link.id then f left else left)
        = (linksOf s row.workId).map id :=
          map_congr_left fun left among => if_neg (apart left among)
      _ = linksOf s row.workId := map_id _

theorem Reranks.refl (workId : String) (s : Store) : Reranks workId false s s := fun _ _ => rfl

theorem Reranks.trans (first : Reranks workId changed s s')
    (second : Reranks workId again s' s'') : Reranks workId (changed || again) s s'' := by
  intro row other
  rw [second row fun set => other (by simp [set]), first row fun set => other (by simp [set])]

/-- What a run of edits does to the registry. -/
theorem LinkEdits.spec (edits : LinkEdits workId s changed s') (keys : LinkKeys s) :
    RegistryOnly s s' ∧ LinkKeys s' ∧ Reranks workId changed s s' := by
  induction edits with
  | refl => exact ⟨.refl s, keys, .refl workId s⟩
  | tail _ edit ih =>
    obtain ⟨frame, middle, reranks⟩ := ih
    exact ⟨frame.trans edit.frame, edit.keys middle, reranks.trans (edit.reranks middle)⟩

theorem LinkEdits.single (edit : LinkEdit workId s changed s') : LinkEdits workId s changed s' := by
  have edits := LinkEdits.tail (@LinkEdits.refl workId s) edit
  rwa [Bool.false_or] at edits

theorem LinkEdits.trans (first : LinkEdits workId s changed s')
    (second : LinkEdits workId s' again s'') : LinkEdits workId s (changed || again) s'' := by
  induction second with
  | refl => rwa [Bool.or_false]
  | tail _ edit ih =>
    rw [← Bool.or_assoc]
    exact ih.tail edit

end Edits

/-- The registry of a work was edited, and its records were replayed if they may
belong elsewhere now. -/
def Relinked (workId : String) (s s' : Store) : Prop :=
  ∃ changed middle, LinkEdits workId s changed middle ∧
    s' = if changed then (resequenceWorkAnnotations middle workId).1 else middle

/-- Any number of writes of links. -/
abbrev Relinks : Store → Store → Prop :=
  Relation.ReflTransGen fun s s' => ∃ workId, Relinked workId s s'

/-- The link identities of a pairing are new. -/
structure FreshPair (ids : PairIds) (s : Store) : Prop where
  anchor : ∀ link ∈ s.links, link.id ≠ ids.anchorLink
  other : ∀ link ∈ s.links, link.id ≠ ids.otherLink
  apart : ids.anchorLink ≠ ids.otherLink

section Pairing

variable {ids : PairIds}

theorem Relinks.of_edit (edit : LinkEdit workId s false s') : Relinks s s' :=
  .single ⟨workId, false, s', .single edit, rfl⟩

theorem rejectPair_relinks (s : Store) (mediaA mediaB : String) :
    Relinks s (rejectPair s mediaA mediaB).1 := by
  refine foldl_rel (fun _ => .refl) .trans fun s link _ => ?_
  unfold rejectLink
  split
  · have edit : LinkEdit link.workId s false
        (updateLink s link.id fun row => { row with pairStatus := .rejected }) :=
      .judged link.id fun _ _ _ => ⟨rfl, rfl, rfl, rfl, rfl⟩
    exact .of_edit edit
  · exact .refl

variable [Host] {existing : Option MediaLink} {evidence : PairEvidence} {status : PairStatus}
  {wrote : Bool} {now : Int}

/-- Writing one side of a pair edits the links of its work; no identity is used
but the one it was given. -/
theorem upsertLink_relinked {uuid mediaId : String}
    (fresh : ∀ link ∈ s.links, link.id ≠ uuid)
    (success : upsertLink now uuid s mediaId workId existing status evidence = .ok (s', wrote)) :
    Relinked workId s s' ∧
      ∀ link ∈ s'.links, link.id = uuid ∨ ∃ old ∈ s.links, old.id = link.id := by
  unfold upsertLink at success
  cases existing with
  | none =>
    simp only at success
    split at success
    · cases success
    rename_i unlinked
    cases success
    refine ⟨⟨true, _, .single (.added rfl (Option.not_isSome_iff_eq_none.mp unlinked) fresh),
      rfl⟩, ?_⟩
    exact forall_mem_concat (fun link old => .inr ⟨link, old, rfl⟩) (.inl rfl)
  | some existing =>
    simp only at success
    split_ifs at success with homed same
    · cases success
      exact ⟨⟨false, s, .refl, rfl⟩, fun link member => .inr ⟨link, member, rfl⟩⟩
    have edit : LinkEdit workId s false s' := by
      cases success
      exact .judged existing.id fun link _ _ => ⟨rfl, rfl, rfl, rfl, rfl⟩
    refine ⟨⟨false, s', .single edit, rfl⟩, fun link member => ?_⟩
    cases success
    rcases mem_updateAt.mp member with ⟨old, -⟩ | ⟨old, stored, -, rfl⟩
    · exact .inr ⟨link, old, rfl⟩
    · exact .inr ⟨old, stored, rfl⟩

/-- The first side of a pair does not use the identity kept for the second. -/
theorem FreshPair.unused
    (fresh : FreshPair ids s)
    (success : upsertLink now ids.anchorLink s mediaId workId existing status evidence =
      .ok (s', wrote)) : ∀ link ∈ s'.links, link.id ≠ ids.otherLink := by
  intro link member same
  rcases (upsertLink_relinked fresh.anchor success).2 link member with taken | ⟨old, stored, kept⟩
  · exact fresh.apart (taken.symm.trans same)
  · exact fresh.other old stored (kept.trans same)

theorem writeSides_relinks (now : Int) (fresh : FreshPair ids s)
    (anchorMediaId otherMediaId : String) (anchor other : Option MediaLink) (workId : String)
    (status : PairStatus) (evidence : PairEvidence) :
    Relinks s
      (writeSides now ids s anchorMediaId otherMediaId anchor other workId status evidence).1 := by
  unfold writeSides
  split
  · exact .refl
  split
  · exact .refl
  rename_i first wroteAnchor firstWrite
  have relinked := (upsertLink_relinked fresh.anchor firstWrite).1
  split
  · exact .single ⟨workId, relinked⟩
  · rename_i second wroteOther secondWrite
    exact .tail (.single ⟨workId, relinked⟩)
      ⟨workId, (upsertLink_relinked (fresh.unused firstWrite) secondWrite).1⟩

theorem writePair_relinks (now : Int) (fresh : FreshPair ids s)
    (anchorMediaId otherMediaId : String) (status : PairStatus) (evidence : PairEvidence) :
    Relinks s (writePair now ids s anchorMediaId otherMediaId status evidence).1 := by
  unfold writePair
  simp only
  split
  · exact .refl
  · exact .refl
  · split
    · exact .refl
    · exact writeSides_relinks now fresh _ _ _ _ _ _ _
  · exact writeSides_relinks now fresh _ _ _ _ _ _ _
  · exact writeSides_relinks now fresh _ _ _ _ _ _ _
  have created : LinkEdit ids.work s false
      (createWork now ids.work s anchorMediaId otherMediaId) := .registered
  have still : FreshPair ids (createWork now ids.work s anchorMediaId otherMediaId) :=
    ⟨fresh.anchor, fresh.other, fresh.apart⟩
  exact (Relinks.of_edit created).trans (writeSides_relinks now still _ _ _ _ _ _ _)

end Pairing

/-- The link identities a resolution draws are new, one for each media row. -/
structure FreshLinks (ids : ResolveIds) (s : Store) : Prop where
  unused : ∀ link ∈ s.links, ∀ mediaId, link.id ≠ ids.link mediaId
  apart : Function.Injective ids.link

/-- Only works, editions and aliases differ. -/
def RegistersOnly (s s' : Store) : Prop :=
  s' = { s with works := s'.works, editions := s'.editions, aliases := s'.aliases }

section Resolution

variable [Host] {now : Int} {ids : ResolveIds} {candidate : EditionCandidate}
  {candidates : List EditionCandidate} {request : ResolveRequest} {changed : Bool}

omit [Host] in
theorem RegistersOnly.refl (s : Store) : RegistersOnly s s := rfl

omit [Host] in
theorem RegistersOnly.trans (first : RegistersOnly s s') (second : RegistersOnly s' s'') :
    RegistersOnly s s'' := by
  unfold RegistersOnly at *
  rw [second, first]

omit [Host] in
theorem RegistersOnly.edits (workId : String) (frame : RegistersOnly s s') :
    LinkEdits workId s false s' := by
  rw [frame]
  exact .single .registered

theorem upsertEdition_registersOnly
    (success : upsertEdition now workId s candidate = .ok s') : RegistersOnly s s' := by
  unfold upsertEdition at success
  split at success
  · obtain ⟨-, -, success⟩ := bind_eq_ok.mp success
    cases success
    rfl
  · cases success
    rfl

theorem upsertAlias_registersOnly {identifier : Identifier}
    (success : upsertAlias now workId candidates s identifier = .ok s') : RegistersOnly s s' := by
  unfold upsertAlias at success
  split at success
  · obtain ⟨-, -, success⟩ := bind_eq_ok.mp success
    cases success
    split <;> rfl
  · cases success
    rfl

/-- A drawn identity is on no link but that of its media row. -/
def Assigned (ids : ResolveIds) (s : Store) : Prop :=
  ∀ link ∈ s.links, ∀ mediaId, link.id = ids.link mediaId → link.mediaId = mediaId

/-- Linking the media row of an edition edits the links of the work, and reports
whether records may belong elsewhere now. -/
theorem upsertEditionLink_edits {changed' : Bool}
    (apart : Function.Injective ids.link) (keys : LinkKeys s) (assigned : Assigned ids s)
    (success : upsertEditionLink now ids workId (s, changed) candidate = .ok (s', changed')) :
    ∃ again, LinkEdits workId s again s' ∧ changed' = (changed || again) ∧ Assigned ids s' := by
  unfold upsertEditionLink at success
  cases media : candidate.mediaId with
  | none =>
    simp only [media] at success
    cases success
    exact ⟨false, .refl, by simp, assigned⟩
  | some mediaId =>
    simp only [media] at success
    cases linked : s.linkForMedia mediaId with
    | none =>
      simp only [linked] at success
      cases success
      have fresh : ∀ other ∈ s.links, other.id ≠ ids.link mediaId := fun other member same =>
        lookup_eq_none.mp linked other member (assigned other member mediaId same)
      refine ⟨true, .single (.added rfl linked fresh), by simp, ?_⟩
      exact forall_mem_concat assigned fun otherId same => apart same
    | some link =>
      simp only [linked] at success
      obtain ⟨_, own, success⟩ := bind_eq_ok.mp success
      have own : link.workId = workId := ensure_eq_ok.mp own
      have stored := lookup_mem linked
      by_cases same : link.editionSha = candidate.editionSha ∧
          link.resolutionStatus = candidate.resolutionStatus
      · rw [if_pos same] at success
        cases success
        exact ⟨false, .refl, by simp, assigned⟩
      rw [if_neg same] at success
      cases success
      refine ⟨decide (link.editionSha ≠ candidate.editionSha), ?_, rfl, ?_⟩
      · by_cases digest : link.editionSha = candidate.editionSha
        · -- Only the provenance of the one link with this identity changes.
          rw [decide_eq_false (not_not.mpr digest)]
          refine .single (.judged link.id fun other member identity => ?_)
          rw [inj_on_of_nodup_map keys.ids member stored identity]
          exact ⟨rfl, rfl, rfl, digest.symm, rfl⟩
        · rw [decide_eq_true digest]
          exact .single (.redigested stored own fun _ => ⟨rfl, rfl, rfl⟩)
      · intro other member otherId identity
        rcases mem_updateAt.mp member with ⟨old, -⟩ | ⟨old, kept, -, rfl⟩
        · exact assigned other old otherId identity
        · exact assigned old kept otherId identity

/-- A resolution registers its work, editions and aliases, and then its links. -/
theorem register_split {state : Store × Bool}
    (success : register now ids s request candidates workId = .ok state) :
    ∃ middle, RegistersOnly s middle ∧
      candidates.foldlM (upsertEditionLink now ids workId) (middle, false) = .ok state := by
  obtain ⟨withEditions, editions, success⟩ := bind_eq_ok.mp success
  obtain ⟨withAliases, aliases, success⟩ := bind_eq_ok.mp success
  refine ⟨withAliases, ?_, success⟩
  have named : ∀ workId title author, RegistersOnly s (upsertWork now s workId title author) := by
    intro workId title author
    unfold upsertWork
    split_ifs <;> rfl
  exact (named _ _ _).trans
    ((foldlM_rel (R := RegistersOnly) .refl .trans
      (fun _ _ _ _ => upsertEdition_registersOnly) editions).trans
      (foldlM_rel (R := RegistersOnly) .refl .trans
        (fun _ _ _ _ => upsertAlias_registersOnly) aliases))

/-- The rows a resolution registers are edits of its work, and its flag is theirs. -/
theorem register_edits (keys : LinkKeys s) (fresh : FreshLinks ids s)
    (success : register now ids s request candidates workId = .ok (s', changed)) :
    LinkEdits workId s changed s' := by
  obtain ⟨withAliases, registered, success⟩ := register_split success
  have links : withAliases.links = s.links := by
    rw [registered]
  have start : LinkKeys withAliases ∧ Assigned ids withAliases := by
    refine ⟨keys.of_links links, ?_⟩
    intro link member mediaId same
    rw [links] at member
    exact absurd same (fresh.unused link member mediaId)
  -- The loop keeps the keys, and its flag says whether one of its edits can move records.
  have loop := foldlM_rel
    (R := fun before after : Store × Bool => LinkKeys before.1 ∧ Assigned ids before.1 →
      ∃ again, LinkEdits workId before.1 again after.1 ∧ after.2 = (before.2 || again) ∧
        LinkKeys after.1 ∧ Assigned ids after.1)
    (fun state held => ⟨false, .refl, by simp, held⟩)
    (fun {a b c} first second held => by
      obtain ⟨again, edits, flag, middle⟩ := first held
      obtain ⟨more, later, laterFlag, last⟩ := second middle
      exact ⟨again || more, edits.trans later, by rw [laterFlag, flag, Bool.or_assoc], last⟩)
    (fun before after candidate _ step held => by
      obtain ⟨again, edits, flag, assigned⟩ :=
        upsertEditionLink_edits fresh.apart held.1 held.2 step
      exact ⟨again, edits, flag, (edits.spec held.1).2.1, assigned⟩)
    success
  obtain ⟨again, edits, flag, -⟩ := loop start
  have all := (registered.edits workId).trans edits
  rw [show changed = again from flag]
  exact all

end Resolution

end Coppice.LiseurSync
