import Coppice.LiseurSync.Push
import Coppice.Models.EditionPair

/-!
# Work resolution

`resolveWork` turns the identifiers of a book into a work. It looks up aliases,
reads the files the identifiers name, looks up editions when no alias matched,
and only then opens the write transaction `resolveWrite`, which registers the
identifiers, editions and links or refuses on the first row that names another
work. `resolveCatalogBook` does this for a book of the catalogue, and merges the
work a pairing minted into the one the book's aliases prove.
-/

namespace Coppice.LiseurSync

open Coppice.Std Models Models.Store

/-- An edition a request names: a digest, and the media row it was read from. -/
structure EditionCandidate where
  editionSha : String
  sampledHash : Option String
  koreaderHash : Option String
  mediaId : Option String
  pageCount : Option Int
  resolutionStatus : ResolutionStatus
deriving DecidableEq, Repr

def normalizedIdentifier (identifier : Identifier) : Identifier :=
  let kind := trim identifier.kind
  { kind := kind
    value := if kind = "sha256" ∨ kind = "partial-md5" then
      toAsciiLowercase (trim identifier.value) else trim identifier.value }

/-- The alias of an identifier. -/
def aliasMatches (s : Store) (identifier : Identifier) : Option Alias :=
  s.aliases.find? fun row => row.kind = identifier.kind && row.value = identifier.value

def findEdition (s : Store) (editionSha : String) : Option Edition :=
  lookup Edition.editionSha s.editions editionSha

/-- The digest of a file: none when the file is gone, an error when it cannot be
read. -/
def fullFileSha256 (s : Store) (path : String) : Txn (Option String) :=
  match lookup Prod.fst s.files path with
  | none => .ok none
  | some (_, some sha) => .ok (some sha)
  | some (_, none) => .error (.internal "file could not be read")

section Candidates

variable [Host]

/-- The media row an identifier names. A digest names none: the stored hash is a
sampled fingerprint. -/
def findMediaForIdentifier (s : Store) (identifier : Identifier) : Option Media :=
  match identifier.kind with
  | "partial-md5" =>
    (Host.scan (s.media.filter fun media =>
      !media.deleted && media.koreaderHash = some identifier.value)).head?
  | "source" => s.media.find? fun media => !media.deleted && media.id = identifier.value
  | _ => none

/-- The edition read off a media row. -/
def mediaEdition (media : Media) (sha : String) : EditionCandidate :=
  { editionSha := sha, sampledHash := media.hash, koreaderHash := media.koreaderHash
    mediaId := some media.id, pageCount := if 0 ≤ media.pages then some media.pages else none
    resolutionStatus := .verified }

/-- The edition a bare digest claims. -/
def claimedEdition (sha : String) : EditionCandidate :=
  { editionSha := sha, sampledHash := none, koreaderHash := none, mediaId := none
    pageCount := none, resolutionStatus := .unverified }

/-- Add a verified edition: a digest that is already there is upgraded when it
was only claimed. -/
def addVerified (editions : List EditionCandidate) (candidate : EditionCandidate) :
    List EditionCandidate :=
  if editions.any fun edition => edition.editionSha = candidate.editionSha then
    updateAt EditionCandidate.editionSha candidate.editionSha
      (fun edition => if edition.resolutionStatus = .verified then edition else candidate) editions
  else editions ++ [candidate]

/-- One identifier's edition. The digests seen so far are those of the editions
so far, so the source's set of them is not kept. -/
def addEdition (s : Store) (editions : List EditionCandidate) (identifier : Identifier) :
    Txn (List EditionCandidate) :=
  match findMediaForIdentifier s identifier with
  | none =>
    .ok (if identifier.kind = "sha256" ∧
        (editions.any fun edition => edition.editionSha = identifier.value) = false then
      editions ++ [claimedEdition identifier.value] else editions)
  | some media => do
      -- Only a media row has a digest here: an identifier of kind `sha256` names none.
      match ← fullFileSha256 s media.path with
      | none => return editions
      | some sha => return addVerified editions (mediaEdition media sha)

/-- The editions the identifiers of a request name. -/
def editionCandidates (s : Store) (identifiers : List Identifier) : Txn (List EditionCandidate) :=
  identifiers.foldlM (addEdition s) []

end Candidates

/-- What a set of lookups agreed on: at most one work. -/
def agreedWork (works : List String) : Txn (Option String) :=
  match distinctWorks works with
  | [] => .ok none
  | [workId] => .ok (some workId)
  | works => .error (.identityConflict works)

/-- Refuse a row that names another work. -/
def sameWork (mapped workId : String) : Txn Unit :=
  ensure (mapped = workId) (.identityConflict [mapped, workId])

/-- The identities a resolution draws: the work's, and each new link's by its
media row. -/
structure ResolveIds where
  work : String
  link : String → String

section Write

variable [Host]

/-- Register the work, or take the title and author a request adds. -/
def upsertWork (now : Int) (s : Store) (workId title author : String) : Store :=
  if s.workExists workId = false then
    { s with
      works := s.works ++
        [{ id := workId, title := title, author := author, pending := false
           createdAt := nowString now }] }
  else if title ≠ "" ∨ author ≠ "" then
    { s with
      works := updateAt Work.id workId
        (fun work =>
          { work with
            title := if title ≠ "" then title else work.title
            author := if author ≠ "" then author else work.author
            pending := false })
        s.works }
  else s

/-- Register an edition, or check the work it is registered for. -/
def upsertEdition (now : Int) (workId : String) (s : Store) (candidate : EditionCandidate) :
    Txn Store :=
  match findEdition s candidate.editionSha with
  | some edition => do
      sameWork edition.workId workId
      return s
  | none =>
    .ok { s with
      editions := s.editions ++
        [{ editionSha := candidate.editionSha, sampledHash := candidate.sampledHash
           koreaderHash := candidate.koreaderHash, workId := workId
           mediaId := candidate.mediaId, pageCount := candidate.pageCount
           resolutionStatus := candidate.resolutionStatus, createdAt := nowString now }] }

/-- The edition an identifier stands for, among those of its request. -/
def aliasEdition (candidates : List EditionCandidate) (identifier : Identifier) : Option String :=
  match identifier.kind with
  | "sha256" =>
    (candidates.find? fun edition => edition.editionSha = identifier.value ||
      edition.sampledHash = some identifier.value).map EditionCandidate.editionSha
  | "partial-md5" =>
    (candidates.find? fun edition => edition.koreaderHash = some identifier.value).map
      EditionCandidate.editionSha
  | _ => none

/-- Register an alias, or check the work it is registered for and fill in its
edition. -/
def upsertAlias (now : Int) (workId : String) (candidates : List EditionCandidate) (s : Store)
    (identifier : Identifier) : Txn Store :=
  let editionSha := aliasEdition candidates identifier
  match aliasMatches s identifier with
  | some row => do
      sameWork row.workId workId
      return if row.editionSha = none ∧ editionSha ≠ none then
        { s with
          aliases := s.aliases.map fun row =>
            if row.kind = identifier.kind ∧ row.value = identifier.value then
              { row with editionSha := editionSha } else row }
        else s
  | none =>
    .ok { s with
      aliases := s.aliases ++
        [{ kind := identifier.kind, value := identifier.value, workId := workId
           editionSha := editionSha, createdAt := nowString now }] }

/-- Link the media row of an edition, or check the work it is linked to, and say
whether the links of the work changed. The verdict of a new link is the column's
default. -/
def upsertEditionLink (now : Int) (ids : ResolveIds) (workId : String) (state : Store × Bool)
    (candidate : EditionCandidate) : Txn (Store × Bool) :=
  let (s, changed) := state
  match candidate.mediaId with
  | none => .ok (s, changed)
  | some mediaId =>
    match s.linkForMedia mediaId with
    | some link => do
        sameWork link.workId workId
        return if link.editionSha = candidate.editionSha ∧
            link.resolutionStatus = candidate.resolutionStatus then (s, changed)
          else
            (updateLink s link.id fun row =>
                { row with
                  editionSha := candidate.editionSha
                  resolutionStatus := candidate.resolutionStatus },
              changed || link.editionSha ≠ candidate.editionSha)
    | none =>
      .ok ({ s with
          links := s.links ++
            [{ id := ids.link mediaId, mediaId := mediaId, workId := workId
               editionSha := candidate.editionSha
               resolutionStatus := candidate.resolutionStatus, createdAt := nowString now
               pairStatus := .confirmed, pairEvidence := none }] },
        true)

/-- The rows a resolution registers, and whether the links of the work changed. -/
def register (now : Int) (ids : ResolveIds) (s : Store) (request : ResolveRequest)
    (candidates : List EditionCandidate) (workId : String) : Txn (Store × Bool) := do
  let s := upsertWork now s workId (request.title.getD "") (request.author.getD "")
  let s ← candidates.foldlM (upsertEdition now workId) s
  let s ← (request.identifiers.map normalizedIdentifier).foldlM
    (upsertAlias now workId candidates) s
  candidates.foldlM (upsertEditionLink now ids workId) (s, false)

/-- Replay the work's records when its links changed, and bring its mirrors and
the projections up to date. -/
def replay (now : Int) (s : Store) (workId : String) (changed : Bool) : Txn Store :=
  let s := if changed then (resequenceWorkAnnotations s workId).1 else s
  reconcileAnnotationProjections (reconcileNativeWorks now s [workId])

/-- The write transaction of a resolution, over the editions and the work read
before it opened. -/
def resolveWrite (now : Int) (ids : ResolveIds) (s : Store) (request : ResolveRequest)
    (candidates : List EditionCandidate) (existing : Option String) :
    Txn (Store × ResolveResult) := do
  let workId := existing.getD ids.work
  let (s, changed) ← register now ids s request candidates workId
  let s ← replay now s workId changed
  return (s, { workId := workId, confidence := .high, created := existing.isNone })

/-- A title and author alone only suggest a work, unless the user confirmed. -/
def onlySuggests (request : ResolveRequest) : Bool :=
  (request.identifiers.all fun identifier => (normalizedIdentifier identifier).kind = "ta") &&
    !request.confirmed

end Write

/-- The works the strong aliases of a media row name. -/
def strongAliasWorkIds (s : Store) (mediaId : String) (koreaderHash sha256 : Option String) :
    List String :=
  distinctWorks ((s.aliases.filter fun row =>
    (row.kind = "source" && (row.value = mediaId || row.value = "komga:" ++ mediaId)) ||
      (row.kind = "partial-md5" && some row.value = koreaderHash) ||
      (row.kind = "sha256" && (some row.value = sha256 ||
        (s.editions.any fun edition => edition.workId = row.workId &&
          edition.mediaId = some mediaId && edition.editionSha = row.value) ||
        s.mediaLocations.any fun location =>
          location.1 = mediaId && location.2 = row.value))).map Alias.workId)

/-- The link was written by a pairing that was not refused. -/
def pairCreated (link : MediaLink) : Bool :=
  link.pairEvidence.isSome && link.pairStatus ≠ .rejected

/-- `merge_liseur_work`, on the tables of the lane: every reference to the losing
work names the other one, and the losing work is gone. -/
def mergeLiseurWork (s : Store) (losing identity : String) : Store :=
  let moved (workId : String) : String := if workId = losing then identity else workId
  { s with
    links := s.links.map fun row => { row with workId := moved row.workId }
    editions := s.editions.map fun row => { row with workId := moved row.workId }
    aliases := s.aliases.map fun row => { row with workId := moved row.workId }
    ops := s.ops.map fun row => { row with workId := moved row.workId }
    sessions := s.sessions.map fun row => { row with workId := moved row.workId }
    annotations := s.annotations.map fun row => { row with workId := moved row.workId }
    works := s.works.filter fun work => work.id ≠ losing }

section Catalog

variable [Host]

/-- The transaction that merges a work a pairing minted, as long as nothing
proves it is a work of its own. -/
def mergeAliaslessPairWork (s : Store) (mediaId losing identity : String)
    (koreaderHash sha256 : Option String) : Txn Store :=
  match s.linkForMedia mediaId with
  | none => .error (.notFound "book link changed during resolution")
  | some link =>
    let works := strongAliasWorkIds s mediaId koreaderHash sha256
    if link.workId = identity ∧ works = [identity] then .ok s
    else if link.workId = losing ∧ (s.aliases.any fun row => row.workId = losing) = false ∧
        pairCreated link = true ∧ works = [identity] then
      reconcileAnnotationProjections
        (resequenceWorkAnnotations (mergeLiseurWork s losing identity) identity).1
    else .error (.identityConflict (distinctWorks (works ++ [link.workId])))

end Catalog
end Coppice.LiseurSync
