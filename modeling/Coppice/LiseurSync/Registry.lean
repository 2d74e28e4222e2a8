import Coppice.LiseurSync.Links

/-!
# The registry of works

Aliases, editions and links each map a key to a work. A write of a resolution
only ever adds keys: it refuses as soon as a key it needs is mapped to another
work. `Registry` is the invariant these writes keep, `Grows` what they do to the
three maps, and `Registered` what a resolution leaves behind for good.
-/

namespace Coppice.LiseurSync

open Coppice.Std Models Models.Store
open List hiding lookup lookup_append lookup_cons

/-- The work an identifier is mapped to. -/
def aliasWork (s : Store) (identifier : Identifier) : Option String :=
  (aliasMatches s identifier).map Alias.workId

/-- The work a digest is mapped to. -/
def editionWork (s : Store) (editionSha : String) : Option String :=
  (findEdition s editionSha).map Edition.workId

/-- The work a media row is linked to. -/
def linkWork (s : Store) (mediaId : String) : Option String :=
  (s.linkForMedia mediaId).map MediaLink.workId

/-- The file of the media row has the digest. -/
def MediaDigest (s : Store) (mediaId editionSha : String) : Prop :=
  ∃ media ∈ s.media, media.id = mediaId ∧ fullFileSha256 s media.path = .ok (some editionSha)

/-- Each key of the three maps has one row, whose work exists. A link was verified
against the file of its book, whose digest is mapped to the same work. -/
structure Registry (s : Store) : Prop where
  aliasKeys : (s.aliases.map fun row => (row.kind, row.value)).Nodup
  editionKeys : (s.editions.map Edition.editionSha).Nodup
  linkKeys : (s.links.map MediaLink.mediaId).Nodup
  mediaKeys : (s.media.map Media.id).Nodup
  aliasNamed : ∀ row ∈ s.aliases, s.workExists row.workId = true
  editionNamed : ∀ row ∈ s.editions, s.workExists row.workId = true
  linkNamed : ∀ row ∈ s.links, s.workExists row.workId = true
  verified : ∀ link ∈ s.links, link.resolutionStatus = .verified ∧
    MediaDigest s link.mediaId link.editionSha ∧
    editionWork s link.editionSha = some link.workId

/-- The maps keep every key they have, over one library. -/
structure Grows (s s' : Store) : Prop where
  aliases : ∀ identifier workId, aliasWork s identifier = some workId →
    aliasWork s' identifier = some workId
  editions : ∀ sha workId, editionWork s sha = some workId → editionWork s' sha = some workId
  links : ∀ mediaId workId, linkWork s mediaId = some workId → linkWork s' mediaId = some workId
  media : s'.media = s.media
  files : s'.files = s.files

variable {now : Int} {ids : ResolveIds} {workId : String} {s s' s'' : Store}
  {identifier : Identifier}

section Maps

variable {mediaId sha : String}

theorem aliasMatches_eq_lookup (s : Store) (identifier : Identifier) :
    aliasMatches s identifier =
      lookup (fun row : Alias => (row.kind, row.value)) s.aliases
        (identifier.kind, identifier.value) := by
  unfold aliasMatches lookup
  simp

theorem Grows.refl (s : Store) : Grows s s :=
  ⟨fun _ _ => id, fun _ _ => id, fun _ _ => id, rfl, rfl⟩

theorem Grows.trans (first : Grows s s') (second : Grows s' s'') : Grows s s'' where
  aliases identifier workId mapped := second.aliases _ _ (first.aliases identifier workId mapped)
  editions sha workId mapped := second.editions _ _ (first.editions sha workId mapped)
  links mediaId workId mapped := second.links _ _ (first.links mediaId workId mapped)
  media := second.media.trans first.media
  files := second.files.trans first.files

theorem MediaDigest.congr (digest : MediaDigest s mediaId sha)
    (media : s'.media = s.media) (files : s'.files = s.files) : MediaDigest s' mediaId sha := by
  unfold MediaDigest fullFileSha256 at *
  rw [media, files]
  exact digest

/-- A file has one digest, and a media row one file. -/
theorem MediaDigest.unique {left right : String} (registry : Registry s)
    (first : MediaDigest s mediaId left) (second : MediaDigest s mediaId right) : left = right := by
  obtain ⟨media, member, id, reads⟩ := first
  obtain ⟨other, otherMember, otherId, otherReads⟩ := second
  have same := inj_on_of_nodup_map registry.mediaKeys member otherMember (id.trans otherId.symm)
  rw [same, otherReads] at reads
  cases reads
  rfl

/-- The link of a book leads to the work of the book's digest. -/
theorem Registry.link_work {link : MediaLink} (registry : Registry s)
    (linked : s.linkForMedia mediaId = some link) (digest : MediaDigest s mediaId sha)
    (mapped : editionWork s sha = some workId) :
    link.workId = workId ∧ link.editionSha = sha ∧ link.resolutionStatus = .verified := by
  obtain ⟨status, own, edition⟩ := registry.verified link (lookup_mem linked)
  rw [lookup_key linked] at own
  have same := own.unique registry digest
  rw [same, mapped] at edition
  cases edition
  exact ⟨rfl, same, status⟩

/-- Only what the registry neither holds nor reads differs. -/
structure SameRegistry (s s' : Store) : Prop where
  works : s'.works = s.works
  editions : s'.editions = s.editions
  aliases : s'.aliases = s.aliases
  links : s'.links = s.links
  media : s'.media = s.media
  files : s'.files = s.files

theorem AnnotationsOnly.sameRegistry (frame : AnnotationsOnly s s') : SameRegistry s s' := by
  rw [frame]
  exact ⟨rfl, rfl, rfl, rfl, rfl, rfl⟩

theorem SameRegistry.keeps (same : SameRegistry s s') :
    Grows s s' ∧ (Registry s → Registry s') := by
  obtain ⟨works, editions, aliases, links, media, files⟩ := same
  cases s
  cases s'
  cases works
  cases editions
  cases aliases
  cases links
  cases media
  cases files
  exact ⟨⟨fun _ _ => id, fun _ _ => id, fun _ _ => id, rfl, rfl⟩, fun registry =>
    { registry with }⟩

end Maps

section Writes

variable [Host] {state' state : Store × Bool} {changed : Bool} {candidate : EditionCandidate}
  {candidates : List EditionCandidate} {request : ResolveRequest}

/-- What a resolution holds while it registers rows for its work. -/
structure Registering (workId : String) (s : Store) : Prop where
  registry : Registry s
  work : s.workExists workId = true

omit [Host] in
theorem workExists_iff {id : String} : s.workExists id = true ↔ id ∈ s.works.map Work.id := by
  simp [workExists]

theorem upsertWork_works (s : Store) (workId title author : String) :
    (upsertWork now s workId title author).works.map Work.id =
      if s.workExists workId then s.works.map Work.id else s.works.map Work.id ++ [workId] := by
  unfold upsertWork
  cases present : s.workExists workId with
  | false => simp
  | true =>
    simp only [Bool.true_eq_false, if_false, if_true]
    split
    · exact map_key_updateAt fun _ own => own
    · rfl

theorem upsertWork_registering (now : Int) (registry : Registry s) (workId title author : String) :
    Registering workId (upsertWork now s workId title author) ∧
      Grows s (upsertWork now s workId title author) := by
  have kept : ∀ id, s.workExists id = true →
      (upsertWork now s workId title author).workExists id = true := by
    intro id present
    rw [workExists_iff] at present ⊢
    rw [upsertWork_works]
    split
    · exact present
    · exact mem_append_left _ present
  have own : (upsertWork now s workId title author).workExists workId = true := by
    rw [workExists_iff, upsertWork_works]
    split
    · rename_i present
      exact workExists_iff.mp present
    · exact mem_append_right _ (mem_singleton_self _)
  have frame : upsertWork now s workId title author =
      { s with works := (upsertWork now s workId title author).works } := by
    unfold upsertWork
    split_ifs <;> rfl
  refine ⟨⟨?_, own⟩, ?_⟩
  · rw [frame] at kept ⊢
    exact { registry with
      aliasNamed := fun row member => kept _ (registry.aliasNamed row member)
      editionNamed := fun row member => kept _ (registry.editionNamed row member)
      linkNamed := fun row member => kept _ (registry.linkNamed row member) }
  · rw [frame]
    exact ⟨fun _ _ => id, fun _ _ => id, fun _ _ => id, rfl, rfl⟩

omit [Host] in
theorem sameWork_eq_ok {mapped : String} {u : Unit} :
    sameWork mapped workId = .ok u ↔ mapped = workId := ensure_eq_ok

variable (held : Registering workId s)
include held

omit [Host] in
theorem Registering.addEdition {row : Edition} (own : row.workId = workId)
    (absent : findEdition s row.editionSha = none) :
    Registering workId { s with editions := s.editions ++ [row] } ∧
      Grows s { s with editions := s.editions ++ [row] } ∧
      editionWork { s with editions := s.editions ++ [row] } row.editionSha = some workId := by
  have registry := held.registry
  have grows : ∀ sha other, editionWork s sha = some other →
      editionWork { s with editions := s.editions ++ [row] } sha = some other := fun _ _ =>
    lookup_added Edition.workId
  refine ⟨⟨{ registry with
      editionKeys := nodup_added registry.editionKeys absent
      editionNamed := ?_
      verified := ?_ }, held.work⟩, ⟨fun _ _ => id, grows, fun _ _ => id, rfl, rfl⟩, ?_⟩
  · refine forall_mem_concat registry.editionNamed ?_
    rw [own]
    exact held.work
  · intro link member
    obtain ⟨status, digest, mapped⟩ := registry.verified link member
    exact ⟨status, digest, grows _ _ mapped⟩
  · have absent : lookup Edition.editionSha s.editions row.editionSha = none := absent
    simp [editionWork, findEdition, lookup_append, absent, lookup_cons, own]

theorem upsertEdition_registering (success : upsertEdition now workId s candidate = .ok s') :
    Registering workId s' ∧ Grows s s' ∧ editionWork s' candidate.editionSha = some workId := by
  unfold upsertEdition at success
  split at success
  · rename_i edition found
    obtain ⟨_, own, success⟩ := bind_eq_ok.mp success
    cases success
    refine ⟨held, .refl _, ?_⟩
    rw [editionWork, found, Option.map_some, sameWork_eq_ok.mp own]
  · rename_i absent
    cases success
    exact held.addEdition rfl absent

omit [Host] in
/-- An alias table with the same keys and works is the same map. -/
theorem Registering.remapAliases {f : Alias → Alias}
    (keeps : ∀ row, (f row).kind = row.kind ∧ (f row).value = row.value ∧
      (f row).workId = row.workId) :
    Registering workId { s with aliases := s.aliases.map f } ∧
      ∀ identifier, aliasWork { s with aliases := s.aliases.map f } identifier =
        aliasWork s identifier := by
  have registry := held.registry
  refine ⟨⟨{ registry with aliasKeys := ?_, aliasNamed := ?_ }, held.work⟩, ?_⟩
  · have same : ((s.aliases.map f).map fun row => (row.kind, row.value)) =
        s.aliases.map fun row => (row.kind, row.value) := by
      rw [map_map]
      exact map_congr_left fun row _ => by simp [keeps row]
    rw [same]
    exact registry.aliasKeys
  · intro row member
    obtain ⟨old, stored, rfl⟩ := mem_map.mp member
    rw [(keeps old).2.2]
    exact registry.aliasNamed old stored
  · intro identifier
    simp only [aliasWork, aliasMatches_eq_lookup]
    rw [lookup_map fun row => by simp [keeps row], Option.map_map]
    congr 1
    funext row
    exact (keeps row).2.2

omit [Host] in
theorem Registering.addAlias {row : Alias} (own : row.workId = workId)
    (key : row.kind = identifier.kind ∧ row.value = identifier.value)
    (absent : aliasMatches s identifier = none) :
    Registering workId { s with aliases := s.aliases ++ [row] } ∧
      Grows s { s with aliases := s.aliases ++ [row] } ∧
      aliasWork { s with aliases := s.aliases ++ [row] } identifier = some workId := by
  have registry := held.registry
  rw [aliasMatches_eq_lookup, ← key.1, ← key.2] at absent
  refine ⟨⟨{ registry with
      aliasKeys := nodup_added registry.aliasKeys absent
      aliasNamed := ?_ }, held.work⟩, ⟨?_, fun _ _ => id, fun _ _ => id, rfl, rfl⟩, ?_⟩
  · refine forall_mem_concat registry.aliasNamed ?_
    rw [own]
    exact held.work
  · intro other work mapped
    simp only [aliasWork, aliasMatches_eq_lookup] at mapped ⊢
    exact lookup_added Alias.workId mapped
  · simp only [aliasWork, aliasMatches_eq_lookup, lookup_append]
    rw [← key.1, ← key.2, absent]
    simp [lookup_cons, own]

theorem upsertAlias_registering
    (success : upsertAlias now workId candidates s identifier = .ok s') :
    Registering workId s' ∧ Grows s s' ∧ aliasWork s' identifier = some workId := by
  unfold upsertAlias at success
  split at success
  · rename_i row found
    obtain ⟨_, own, success⟩ := bind_eq_ok.mp success
    have mapped : aliasWork s identifier = some workId := by
      rw [aliasWork, found, Option.map_some, sameWork_eq_ok.mp own]
    cases success
    split
    · obtain ⟨kept, same⟩ := held.remapAliases
        (f := fun row => if row.kind = identifier.kind ∧ row.value = identifier.value then
          { row with editionSha := aliasEdition candidates identifier } else row)
        fun row => by split <;> exact ⟨rfl, rfl, rfl⟩
      refine ⟨kept, ⟨fun other work => ?_, fun _ _ => id, fun _ _ => id, rfl, rfl⟩, ?_⟩
      · rw [same]
        exact id
      · rw [same]
        exact mapped
    · exact ⟨held, .refl _, mapped⟩
  · rename_i absent
    cases success
    exact held.addAlias rfl ⟨rfl, rfl⟩ absent

omit held

theorem upsertEditionLink_rows
    (success : upsertEditionLink now ids workId state candidate = .ok state') :
    state'.1.annotations = state.1.annotations := by
  unfold upsertEditionLink at success
  simp only at success
  split at success
  · cases success
    rfl
  split at success
  · obtain ⟨_, -, success⟩ := bind_eq_ok.mp success
    cases success
    split <;> rfl
  · cases success
    rfl

theorem register_rows (success : register now ids s request candidates workId = .ok (s', changed)) :
    s'.annotations = s.annotations := by
  obtain ⟨middle, registered, loop⟩ := register_split success
  have linked := foldlM_rel
    (R := fun a b : Store × Bool => b.1.annotations = a.1.annotations) (fun _ => rfl)
    (fun first second => second.trans first) (fun _ _ _ _ step => upsertEditionLink_rows step) loop
  rw [registered] at linked
  exact linked

/-- The book of an edition has the edition's digest. -/
def Read (s : Store) (candidate : EditionCandidate) : Prop :=
  ∀ mediaId, candidate.mediaId = some mediaId →
    candidate.resolutionStatus = .verified ∧ MediaDigest s mediaId candidate.editionSha

omit [Host] in
theorem Read.congr (read : Read s candidate) (grows : Grows s s') : Read s' candidate := by
  intro mediaId book
  obtain ⟨status, digest⟩ := read mediaId book
  exact ⟨status, digest.congr grows.media grows.files⟩

/-- Linking the book of a registered edition finds the link it would write, or adds
it; a link is never rewritten. -/
theorem upsertEditionLink_registering (held : Registering workId state.1)
    (read : Read state.1 candidate)
    (mapped : editionWork state.1 candidate.editionSha = some workId)
    (success : upsertEditionLink now ids workId state candidate = .ok state') :
    Registering workId state'.1 ∧ Grows state.1 state'.1 := by
  obtain ⟨s, changed⟩ := state
  have registry := held.registry
  unfold upsertEditionLink at success
  cases book : candidate.mediaId with
  | none =>
    simp only [book] at success
    cases success
    exact ⟨held, .refl _⟩
  | some mediaId =>
    obtain ⟨status, digest⟩ := read mediaId book
    simp only [book] at success
    cases linked : s.linkForMedia mediaId with
    | some link =>
      obtain ⟨-, sha, verified⟩ := registry.link_work linked digest mapped
      simp only [linked] at success
      obtain ⟨_, -, success⟩ := bind_eq_ok.mp success
      rw [if_pos ⟨sha, verified.trans status.symm⟩] at success
      cases success
      exact ⟨held, .refl _⟩
    | none =>
      simp only [linked] at success
      cases success
      have absent : lookup MediaLink.mediaId s.links mediaId = none := linked
      exact ⟨⟨{ registry with
          linkKeys := nodup_added registry.linkKeys absent
          linkNamed := forall_mem_concat registry.linkNamed held.work
          verified := forall_mem_concat registry.verified ⟨status, digest, mapped⟩ }, held.work⟩,
        ⟨fun _ _ => id, fun _ _ => id, fun _ _ => lookup_added MediaLink.workId, rfl, rfl⟩⟩

/-- The rows a resolution registers: every identifier and every edition is mapped to
its work, and no other key changed its work. -/
theorem register_registering (registry : Registry s)
    (read : ∀ candidate ∈ candidates, Read s candidate)
    (success : register now ids s request candidates workId = .ok (s', changed)) :
    Registering workId s' ∧ Grows s s' ∧
      (∀ identifier ∈ request.identifiers.map normalizedIdentifier,
        aliasWork s' identifier = some workId) ∧
      ∀ candidate ∈ candidates, editionWork s' candidate.editionSha = some workId := by
  obtain ⟨withEditions, editions, success⟩ := bind_eq_ok.mp success
  obtain ⟨withAliases, aliases, success⟩ := bind_eq_ok.mp success
  obtain ⟨started, named⟩ := upsertWork_registering now registry workId
    (request.title.getD "") (request.author.getD "")
  obtain ⟨held, edited, mapped⟩ := foldlM_each (I := Registering workId) (R := Grows)
    (P := fun candidate s => editionWork s candidate.editionSha = some workId) .refl .trans
    (fun grows => grows.editions _ _) (fun _ _ _ _ held => upsertEdition_registering held)
    started editions
  obtain ⟨held, aliased, known⟩ := foldlM_each (I := Registering workId) (R := Grows)
    (P := fun identifier s => aliasWork s identifier = some workId) .refl .trans
    (fun grows => grows.aliases _ _) (fun _ _ _ _ held => upsertAlias_registering held)
    held aliases
  have before := named.trans (edited.trans aliased)
  obtain ⟨held, linked⟩ := foldlM_rel
    (R := fun a b : Store × Bool => Registering workId a.1 ∧ Grows withAliases a.1 →
      Registering workId b.1 ∧ Grows withAliases b.1)
    (fun _ => id) (fun first second held => second (first held))
    (fun state next candidate member step held => by
      obtain ⟨kept, grows⟩ := upsertEditionLink_registering held.1
        ((read candidate member).congr (before.trans held.2))
        ((aliased.trans held.2).editions _ _ (mapped candidate member)) step
      exact ⟨kept, held.2.trans grows⟩)
    success ⟨held, .refl _⟩
  exact ⟨held, before.trans linked,
    fun identifier member => linked.aliases _ _ (known identifier member),
    fun candidate member => (aliased.trans linked).editions _ _ (mapped candidate member)⟩

theorem upsertEdition_ok (mapped : editionWork s candidate.editionSha = some workId) :
    upsertEdition now workId s candidate = .ok s := by
  obtain ⟨edition, found, own⟩ := Option.map_eq_some_iff.mp mapped
  unfold upsertEdition
  rw [found]
  exact bind_eq_ok.mpr ⟨(), sameWork_eq_ok.mpr own, rfl⟩

theorem upsertAlias_ok (mapped : aliasWork s identifier = some workId) :
    ∃ s', upsertAlias now workId candidates s identifier = .ok s' := by
  obtain ⟨row, found, own⟩ := Option.map_eq_some_iff.mp mapped
  unfold upsertAlias
  rw [found]
  exact ⟨_, bind_eq_ok.mpr ⟨(), sameWork_eq_ok.mpr own, rfl⟩⟩

theorem upsertEditionLink_ok (registry : Registry state.1) (read : Read state.1 candidate)
    (mapped : editionWork state.1 candidate.editionSha = some workId) :
    ∃ state', upsertEditionLink now ids workId state candidate = .ok state' := by
  unfold upsertEditionLink
  simp only
  split
  · exact ⟨_, rfl⟩
  rename_i mediaId book
  split
  · rename_i link linked
    obtain ⟨own, -⟩ := registry.link_work linked (read mediaId book).2 mapped
    exact ⟨_, bind_eq_ok.mpr ⟨(), sameWork_eq_ok.mpr own, rfl⟩⟩
  · exact ⟨_, rfl⟩

/-- Registering again what is registered already succeeds. -/
theorem register_ok (now : Int) (ids : ResolveIds) (registry : Registry s)
    (read : ∀ candidate ∈ candidates, Read s candidate)
    (known : ∀ identifier ∈ request.identifiers.map normalizedIdentifier,
      aliasWork s identifier = some workId)
    (mapped : ∀ candidate ∈ candidates, editionWork s candidate.editionSha = some workId) :
    ∃ result, register now ids s request candidates workId = .ok result := by
  obtain ⟨started, named⟩ := upsertWork_registering now registry workId
    (request.title.getD "") (request.author.getD "")
  -- Every loop runs over a store that still maps the keys as they were.
  let I : Store → Prop := fun s' => Registering workId s' ∧ Grows s s'
  have edits : ∃ s', candidates.foldlM (upsertEdition now workId) (upsertWork now s workId
      (request.title.getD "") (request.author.getD "")) = .ok s' ∧ I s' :=
    foldlM_ok (fun s candidate member held => ⟨s,
      upsertEdition_ok (held.2.editions _ _ (mapped candidate member)), held⟩) ⟨started, named⟩
  obtain ⟨withEditions, edited, held⟩ := edits
  have aliases : ∃ s', (request.identifiers.map normalizedIdentifier).foldlM
      (upsertAlias now workId candidates) withEditions = .ok s' ∧ I s' :=
    foldlM_ok (fun s identifier member held => by
      obtain ⟨next, step⟩ := upsertAlias_ok (held.2.aliases _ _ (known identifier member))
      obtain ⟨kept, grows, -⟩ := upsertAlias_registering held.1 step
      exact ⟨next, step, kept, held.2.trans grows⟩) held
  obtain ⟨withAliases, aliased, held⟩ := aliases
  have links : ∃ state, candidates.foldlM (upsertEditionLink now ids workId) (withAliases, false) =
      .ok state ∧ I state.1 :=
    foldlM_ok (I := fun state : Store × Bool => I state.1) (fun state candidate member held => by
      have read := (read candidate member).congr held.2
      have mapped := held.2.editions _ _ (mapped candidate member)
      obtain ⟨next, step⟩ := upsertEditionLink_ok held.1.registry read mapped
      obtain ⟨kept, grows⟩ := upsertEditionLink_registering held.1 read mapped step
      exact ⟨next, step, kept, held.2.trans grows⟩) held
  obtain ⟨state, linked, -⟩ := links
  exact ⟨state, bind_eq_ok.mpr ⟨_, edited, bind_eq_ok.mpr ⟨_, aliased, linked⟩⟩⟩

end Writes

section Candidates

variable [Host] {identifiers : List Identifier} {editions : List EditionCandidate}

/-- The identifier leads to the digest: through the file of the media row it names,
or because it is one. -/
def IdentifierDigest (s : Store) (identifier : Identifier) (editionSha : String) : Prop :=
  (∃ media, findMediaForIdentifier s identifier = some media ∧
    fullFileSha256 s media.path = .ok (some editionSha)) ∨
  findMediaForIdentifier s identifier = none ∧ identifier.kind = "sha256" ∧
    identifier.value = editionSha

/-- The file the identifier leads to, if any, can be read. -/
def Readable (s : Store) (identifier : Identifier) : Prop :=
  ∀ media, findMediaForIdentifier s identifier = some media →
    ∃ digest, fullFileSha256 s media.path = .ok digest

theorem findMediaForIdentifier_mem {media : Media}
    (found : findMediaForIdentifier s identifier = some media) : media ∈ s.media := by
  unfold findMediaForIdentifier at found
  split at found
  · have member := (Host.scan_perm _).mem_iff.mp (mem_of_head? found)
    exact (mem_filter.mp member).1
  · exact mem_of_find?_eq_some found
  · cases found

omit [Host] in
theorem addVerified_spec (editions : List EditionCandidate) (added : EditionCandidate) :
    (∀ candidate ∈ addVerified editions added, candidate ∈ editions ∨ candidate = added) ∧
    (∀ candidate ∈ editions, ∃ kept ∈ addVerified editions added,
      kept.editionSha = candidate.editionSha) ∧
    ∃ kept ∈ addVerified editions added, kept.editionSha = added.editionSha := by
  unfold addVerified
  split
  · rename_i present
    have stays : ∀ candidate ∈ editions, ∃ kept ∈ updateAt EditionCandidate.editionSha
        added.editionSha (fun edition => if edition.resolutionStatus = .verified then edition
          else added) editions, kept.editionSha = candidate.editionSha := by
      intro candidate member
      refine ⟨_, mem_map_of_mem member, ?_⟩
      split
      · rename_i same
        simp only
        split
        · rfl
        · exact same.symm
      · rfl
    refine ⟨?_, stays, ?_⟩
    · intro candidate member
      rcases mem_updateAt.mp member with ⟨old, -⟩ | ⟨old, stored, -, rfl⟩
      · exact .inl old
      · split
        · exact .inl stored
        · exact .inr rfl
    · obtain ⟨candidate, member, same⟩ := any_eq_true.mp present
      obtain ⟨kept, stored, equal⟩ := stays candidate member
      exact ⟨kept, stored, equal.trans (of_decide_eq_true same)⟩
  · refine ⟨?_, fun candidate member => ⟨candidate, mem_append_left _ member, rfl⟩,
      ⟨added, mem_append_right _ (mem_singleton_self _), rfl⟩⟩
    simp

/-- What one identifier does to the editions of a request. -/
structure AddedEdition (s : Store) (identifier : Identifier)
    (editions editions' : List EditionCandidate) : Prop where
  origin : ∀ candidate ∈ editions', candidate ∈ editions ∨
    IdentifierDigest s identifier candidate.editionSha ∧ Read s candidate
  kept : ∀ candidate ∈ editions, ∃ kept ∈ editions', kept.editionSha = candidate.editionSha
  added : ∀ sha, IdentifierDigest s identifier sha →
    ∃ candidate ∈ editions', candidate.editionSha = sha
  readable : Readable s identifier

theorem addEdition_added {editions' : List EditionCandidate}
    (success : addEdition s editions identifier = .ok editions') :
    AddedEdition s identifier editions editions' := by
  unfold addEdition at success
  cases found : findMediaForIdentifier s identifier with
  | none =>
    simp only [found] at success
    cases success
    have digest {sha : String} (leads : IdentifierDigest s identifier sha) :
        identifier.kind = "sha256" ∧ identifier.value = sha := by
      rcases leads with ⟨media, named, -⟩ | ⟨-, leads⟩
      · rw [found] at named
        cases named
      · exact leads
    have readable : Readable s identifier := fun media named => by
      rw [found] at named
      cases named
    split
    · rename_i claims
      refine ⟨?_, fun candidate member => ⟨candidate, mem_append_left _ member, rfl⟩, ?_,
        readable⟩
      · exact forall_mem_concat (fun _ => .inl) (.inr ⟨.inr ⟨found, claims.1, rfl⟩, nofun⟩)
      · intro sha leads
        exact ⟨_, mem_append_right _ (mem_singleton_self _), (digest leads).2⟩
    · rename_i stays
      refine ⟨fun candidate member => .inl member,
        fun candidate member => ⟨candidate, member, rfl⟩, ?_, readable⟩
      intro sha leads
      obtain ⟨kind, rfl⟩ := digest leads
      simp only [kind, true_and, Bool.not_eq_false, any_eq_true, decide_eq_true_eq] at stays
      exact stays
  | some media =>
    simp only [found] at success
    obtain ⟨digest, reads, success⟩ := bind_eq_ok.mp success
    have readable : Readable s identifier := fun other named => by
      rw [found] at named
      cases named
      exact ⟨digest, reads⟩
    have leads {sha : String} (leads : IdentifierDigest s identifier sha) : digest = some sha := by
      rcases leads with ⟨other, named, otherReads⟩ | ⟨named, -⟩
      · rw [found] at named
        cases named
        rw [reads] at otherReads
        cases otherReads
        rfl
      · rw [found] at named
        cases named
    cases digest with
    | none =>
      cases success
      exact ⟨fun candidate member => .inl member,
        fun candidate member => ⟨candidate, member, rfl⟩,
        fun sha digest => absurd (leads digest) nofun, readable⟩
    | some sha =>
      cases success
      obtain ⟨origin, kept, added⟩ := addVerified_spec editions (mediaEdition media sha)
      refine ⟨?_, kept, ?_, readable⟩
      · intro candidate member
        rcases origin candidate member with old | rfl
        · exact .inl old
        · refine .inr ⟨.inl ⟨media, found, reads⟩, ?_⟩
          rintro mediaId ⟨⟩
          exact ⟨rfl, media, findMediaForIdentifier_mem found, rfl, reads⟩
      · intro other digest
        cases leads digest
        exact added

theorem addEdition_ok (readable : Readable s identifier) :
    ∃ editions', addEdition s editions identifier = .ok editions' := by
  unfold addEdition
  split
  · exact ⟨_, rfl⟩
  rename_i media found
  obtain ⟨digest, reads⟩ := readable media found
  cases digest with
  | none => exact ⟨editions, bind_eq_ok.mpr ⟨_, reads, rfl⟩⟩
  | some sha => exact ⟨_, bind_eq_ok.mpr ⟨_, reads, rfl⟩⟩

/-- The editions of a request are those its identifiers lead to. -/
theorem editionCandidates_spec (success : editionCandidates s identifiers = .ok candidates) :
    (∀ candidate ∈ candidates, Read s candidate ∧
      ∃ identifier ∈ identifiers, IdentifierDigest s identifier candidate.editionSha) ∧
    ∀ identifier ∈ identifiers, Readable s identifier ∧ ∀ sha, IdentifierDigest s identifier sha →
      ∃ candidate ∈ candidates, candidate.editionSha = sha := by
  obtain ⟨origin, -, reads⟩ := foldlM_each
    (I := fun editions => ∀ candidate ∈ editions, Read s candidate ∧
      ∃ identifier ∈ identifiers, IdentifierDigest s identifier candidate.editionSha)
    (R := fun editions editions' => ∀ candidate ∈ editions,
      ∃ kept ∈ editions', kept.editionSha = candidate.editionSha)
    (P := fun identifier editions => Readable s identifier ∧ ∀ sha,
      IdentifierDigest s identifier sha → ∃ candidate ∈ editions, candidate.editionSha = sha)
    (fun _ candidate member => ⟨candidate, member, rfl⟩)
    (fun first second candidate member => by
      obtain ⟨kept, stored, same⟩ := first candidate member
      obtain ⟨last, found, equal⟩ := second kept stored
      exact ⟨last, found, equal.trans same⟩)
    (fun stays known => by
      refine ⟨known.1, fun sha leads => ?_⟩
      obtain ⟨candidate, member, rfl⟩ := known.2 sha leads
      exact stays candidate member)
    (fun editions next identifier member held step => by
      have added := addEdition_added step
      refine ⟨?_, added.kept, added.readable, added.added⟩
      intro candidate stored
      rcases added.origin candidate stored with old | ⟨leads, read⟩
      · exact held candidate old
      · exact ⟨read, identifier, member, leads⟩)
    (by simp) success
  exact ⟨origin, reads⟩

/-- An identifier names one edition at most. -/
theorem editionCandidates_length (success : editionCandidates s identifiers = .ok candidates) :
    candidates.length ≤ identifiers.length := by
  have step {editions editions' : List EditionCandidate} {identifier : Identifier}
      (success : addEdition s editions identifier = .ok editions') :
      editions'.length ≤ editions.length + 1 := by
    unfold addEdition at success
    split at success
    · cases success
      split <;> simp
    obtain ⟨digest, -, success⟩ := bind_eq_ok.mp success
    cases digest with
    | none =>
      cases success
      omega
    | some sha =>
      cases success
      unfold addVerified
      split <;> simp [updateAt]
  suffices general : ∀ editions, identifiers.foldlM (addEdition s) editions = .ok candidates →
      candidates.length ≤ editions.length + identifiers.length by
    simpa using general [] success
  clear success
  induction identifiers with
  | nil =>
    intro editions success
    cases success
    simp
  | cons identifier rest ih =>
    intro editions success
    obtain ⟨next, first, tail⟩ := bind_eq_ok.mp success
    have grows := step first
    have bound := ih next tail
    simp only [length_cons]
    omega

theorem editionCandidates_ok (readable : ∀ identifier ∈ identifiers, Readable s identifier) :
    ∃ candidates, editionCandidates s identifiers = .ok candidates := by
  have loop : ∃ candidates, identifiers.foldlM (addEdition s) [] = .ok candidates ∧ True :=
    foldlM_ok (fun editions identifier member _ => by
      obtain ⟨next, step⟩ := addEdition_ok (readable identifier member)
      exact ⟨next, step, trivial⟩) trivial
  obtain ⟨candidates, success, -⟩ := loop
  exact ⟨candidates, success⟩

end Candidates

section Replay

variable [Host]

/-- The timestamps of a client's live records can be read back. -/
def Stamped (s : Store) : Prop :=
  ∀ row ∈ s.annotations, isStumpNativeAnnotationId row.id = false → row.deleted = false →
    (∃ time, instant row.clientTs = .ok time) ∧ ∃ time, instant row.updatedAt = .ok time

theorem Stamped.of_rows (stamped : Stamped s) (rows : s'.annotations = s.annotations) :
    Stamped s' := by
  unfold Stamped
  rw [rows]
  exact stamped

theorem resequenceWorkAnnotations_stamped (stamped : Stamped s) (workId : String) :
    Stamped (resequenceWorkAnnotations s workId).1 := by
  intro row member
  simp only [resequenceWorkAnnotations, mem_map] at member
  obtain ⟨old, stored, shape⟩ := member
  have kept := stamped old stored
  split at shape
  · rw [← shape]
    exact kept
  · rw [← shape]
    exact kept

theorem MirrorEdits.stamped (edits : MirrorEdits s s') (stamped : Stamped s) : Stamped s' := by
  refine edits.forall_rows ?_ ?_ ?_ stamped
  · intro candidate seq exported client
    have native : isStumpNativeAnnotationId (mirrorOf candidate seq).id = true := exported.native
    rw [client] at native
    cases native
  · intro candidate stored seq row exported own _ client
    have native : isStumpNativeAnnotationId (refreshMirror candidate stored seq row).id = true := by
      have same : (refreshMirror candidate stored seq row).id = candidate.id := own
      rw [same]
      exact exported.native
    rw [client] at native
    cases native
  · intro now rev seq row native _ client
    have same : (tombstone now rev seq row).id = row.id := rfl
    rw [same, native] at client
    cases client

theorem projectAnnotation_ok {row : StoredAnnotation}
    (stamped : isStumpNativeAnnotationId row.id = false → row.deleted = false →
      (∃ time, instant row.clientTs = .ok time) ∧ ∃ time, instant row.updatedAt = .ok time) :
    ∃ s', projectAnnotation s row = .ok s' := by
  unfold projectAnnotation
  split
  · exact ⟨s, rfl⟩
  rename_i client
  have projects : ∃ projection, projectionOf s row = .ok projection := by
    unfold projectionOf
    split
    · exact ⟨none, rfl⟩
    rename_i live
    obtain ⟨⟨createdAt, created⟩, updatedAt, updated⟩ := stamped (by simpa using client)
      (by simpa using fun deleted => live (.inl deleted))
    split
    · exact ⟨none, rfl⟩
    · exact ⟨none, rfl⟩
    · exact ⟨_, bind_eq_ok.mpr ⟨_, created, bind_eq_ok.mpr ⟨_, updated, rfl⟩⟩⟩
  obtain ⟨projection, projects⟩ := projects
  exact ⟨_, bind_eq_ok.mpr ⟨_, projects, rfl⟩⟩

theorem reconcileAnnotationProjections_ok (stamped : Stamped s) :
    ∃ s', reconcileAnnotationProjections s = .ok s' := by
  unfold reconcileAnnotationProjections
  split
  · exact ⟨s, rfl⟩
  have loop : ∃ s', (feedRange s s.projectedAnnotationSeq s.annotationSeq).foldlM
      projectAnnotation s = .ok s' ∧ True :=
    foldlM_ok (fun s' row member _ => by
      simp only [feedRange, mem_orderBy, mem_filter] at member
      obtain ⟨next, step⟩ := projectAnnotation_ok (s := s') (stamped row member.1)
      exact ⟨next, step, trivial⟩) trivial
  obtain ⟨projected, loop, -⟩ := loop
  exact ⟨_, bind_eq_ok.mpr ⟨_, loop, rfl⟩⟩

/-- What replaying the records of a work reaches before it moves the cursor. -/
theorem replay_reaches (now : Int) (s : Store) (workId : String) (changed : Bool) :
    ∃ middle, AnnotationsOnly s middle ∧ (Stamped s → Stamped middle) ∧
      replay now s workId changed = reconcileAnnotationProjections middle := by
  refine ⟨_, ?_, ?_, rfl⟩
  · refine AnnotationsOnly.trans ?_
      (reconcileNativeWorks_edits now [workId]).laneWrite.frame.annotationsOnly
    split
    · exact (resequenceWorkAnnotations_laneWrite s workId).frame.annotationsOnly
    · exact .refl s
  · intro stamped
    refine (reconcileNativeWorks_edits now [workId]).stamped ?_
    split
    · exact resequenceWorkAnnotations_stamped stamped workId
    · exact stamped

theorem replay_annotationsOnly {changed : Bool} (success : replay now s workId changed = .ok s') :
    AnnotationsOnly s s' ∧ (Stamped s → Stamped s') := by
  obtain ⟨middle, frame, stamped, same⟩ := replay_reaches now s workId changed
  rw [same] at success
  have native := reconcileAnnotationProjections_nativeOnly success
  exact ⟨frame.trans native.annotationsOnly, fun before => (stamped before).of_rows native.rows⟩

theorem replay_ok (stamped : Stamped s) (workId : String) (changed : Bool) :
    ∃ s', replay now s workId changed = .ok s' := by
  obtain ⟨middle, -, kept, same⟩ := replay_reaches now s workId changed
  rw [same]
  exact reconcileAnnotationProjections_ok (kept stamped)

end Replay

section Resolution

variable [Host] {identifiers : List Identifier}

/-- The identifiers are mapped to the work for good: so are the digests they lead
to, and their files could be read. -/
structure Registered (s : Store) (identifiers : List Identifier) (workId : String) : Prop where
  known : ∀ identifier ∈ identifiers, aliasWork s identifier = some workId
  mapped : ∀ identifier ∈ identifiers, ∀ sha, IdentifierDigest s identifier sha →
    editionWork s sha = some workId
  readable : ∀ identifier ∈ identifiers, Readable s identifier

theorem Registered.subset {some : List Identifier}
    (registered : Registered s identifiers workId) (subset : some ⊆ identifiers) :
    Registered s some workId where
  known identifier member := registered.known identifier (subset member)
  mapped identifier member := registered.mapped identifier (subset member)
  readable identifier member := registered.readable identifier (subset member)

theorem findMediaForIdentifier_congr (grows : Grows s s') (identifier : Identifier) :
    findMediaForIdentifier s' identifier = findMediaForIdentifier s identifier := by
  unfold findMediaForIdentifier
  rw [grows.media]

omit [Host] in
theorem fullFileSha256_congr (grows : Grows s s') (path : String) :
    fullFileSha256 s' path = fullFileSha256 s path := by
  unfold fullFileSha256
  rw [grows.files]

theorem identifierDigest_congr (grows : Grows s s') {sha : String} :
    IdentifierDigest s' identifier sha ↔ IdentifierDigest s identifier sha := by
  simp only [IdentifierDigest, findMediaForIdentifier_congr grows, fullFileSha256_congr grows]

theorem readable_congr (grows : Grows s s') : Readable s' identifier ↔ Readable s identifier := by
  simp only [Readable, findMediaForIdentifier_congr grows, fullFileSha256_congr grows]

theorem Registered.grows
    (registered : Registered s identifiers workId) (grows : Grows s s') :
    Registered s' identifiers workId where
  known identifier member := grows.aliases _ _ (registered.known identifier member)
  mapped identifier member sha leads := grows.editions _ _
    (registered.mapped identifier member sha ((identifierDigest_congr grows).mp leads))
  readable identifier member := (readable_congr grows).mpr (registered.readable identifier member)

theorem editionCandidates_congr (grows : Grows s s') (identifiers : List Identifier) :
    editionCandidates s' identifiers = editionCandidates s identifiers := by
  unfold editionCandidates
  congr 1
  funext editions identifier
  unfold addEdition
  rw [findMediaForIdentifier_congr grows]
  simp only [fullFileSha256_congr grows]

/-- The write transaction of a resolution maps all it was asked for to the work it
answers, and changes no other key. -/
theorem resolveWrite_registered {existing : Option String} {result : ResolveResult}
    (registry : Registry s)
    (reads : editionCandidates s (request.identifiers.map normalizedIdentifier) = .ok candidates)
    (success : resolveWrite now ids s request candidates existing = .ok (s', result)) :
    Registry s' ∧ Grows s s' ∧ (Stamped s → Stamped s') ∧
      Registered s' (request.identifiers.map normalizedIdentifier) result.workId := by
  obtain ⟨⟨registered, changed⟩, registers, success⟩ := bind_eq_ok.mp success
  obtain ⟨replayed, replays, success⟩ := bind_eq_ok.mp success
  cases success
  obtain ⟨origin, leads⟩ := editionCandidates_spec reads
  obtain ⟨held, grows, known, mapped⟩ := register_registering registry
    (fun candidate member => (origin candidate member).1) registers
  obtain ⟨frame, stamped⟩ := replay_annotationsOnly replays
  obtain ⟨later, kept⟩ := frame.sameRegistry.keeps
  refine ⟨kept held.registry, grows.trans later,
    fun before => stamped (before.of_rows (register_rows registers)), ?_⟩
  refine Registered.grows (s := registered) ⟨known, fun identifier member sha digest => ?_, ?_⟩
    later
  · obtain ⟨candidate, among, rfl⟩ :=
      (leads identifier member).2 sha ((identifierDigest_congr grows).mp digest)
    exact mapped candidate among
  · exact fun identifier member => (readable_congr grows).mpr (leads identifier member).1

/-- Resolving what is mapped to a work already succeeds. -/
theorem resolveWrite_ok (now : Int) (ids : ResolveIds) (registry : Registry s) (stamped : Stamped s)
    (registered : Registered s (request.identifiers.map normalizedIdentifier) workId)
    (reads : editionCandidates s (request.identifiers.map normalizedIdentifier) = .ok candidates) :
    ∃ s', resolveWrite now ids s request candidates (some workId) =
      .ok (s', { workId, confidence := .high, created := false }) := by
  obtain ⟨origin, -⟩ := editionCandidates_spec reads
  have mapped : ∀ candidate ∈ candidates, editionWork s candidate.editionSha = some workId := by
    intro candidate member
    obtain ⟨-, identifier, among, leads⟩ := origin candidate member
    exact registered.mapped identifier among _ leads
  obtain ⟨⟨middle, changed⟩, registers⟩ := register_ok now ids registry
    (fun candidate member => (origin candidate member).1) registered.known mapped
  obtain ⟨s', replays⟩ :=
    replay_ok (stamped.of_rows (register_rows registers)) workId changed
  exact ⟨s', bind_eq_ok.mpr ⟨_, registers, bind_eq_ok.mpr ⟨_, replays, rfl⟩⟩⟩

end Resolution
end Coppice.LiseurSync
