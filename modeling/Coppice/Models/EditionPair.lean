import Mathlib.Data.List.Dedup
import Mathlib.Data.String.Basic
import Coppice.Models.AnnotationFeed

/-!
# Edition pairs

A pair is two links of one work. `suggestPair` records a guess, `confirmPair` a
fact, and `rejectPair` a refusal that later guesses must not undo. The callers
run these on a plain connection, so a call that fails keeps what it wrote
before; the functions answer with the store they leave either way. A new row's
identity is drawn by the caller.
-/

namespace Coppice.Models

open Coppice.Std

/-- Higher wins. -/
def PairEvidence.rank : PairEvidence → Nat
  | manual => 4
  | workId => 3
  | providerEditionList => 2
  | sameDrop => 1
  | titleAuthor => 0

/-- Why a pairing write was a no-op. -/
inductive PairUnchanged where
  | rejected (workId : String)
  | alreadySet (workId : String) (status : PairStatus)
  | workConflict (mediaId workId : String)
  | noLink
deriving DecidableEq, Repr

/-- What a pairing write did. -/
inductive PairOutcome where
  | written (workId : String) (status : PairStatus)
  | unchanged (why : PairUnchanged)
deriving DecidableEq, Repr

/-- The identities a pairing write draws: a work's, and one link's per side. -/
structure PairIds where
  work : String
  anchorLink : String
  otherLink : String
deriving DecidableEq, Repr

/-- A call on a plain connection: the store it leaves, and its answer or the
text of the database error. -/
abbrev Auto (α : Type) := Store × Except String α

/-- The works some distinct rows name, in order. -/
def distinctWorks (works : List String) : List String := orderBy id works.dedup

/-- The work an alias proves an unlinked media row belongs to: by its source
identifier, or by an edition the alias names. -/
def workForUnlinkedMedia (s : Store) (mediaId : String) : Except String (Option String) :=
  let aliases := s.aliases.filter fun row =>
    (row.kind = "source" && row.value = mediaId) ||
      s.editions.any fun edition =>
        edition.workId = row.workId &&
          (row.editionSha = none || row.editionSha = some edition.editionSha) &&
          edition.mediaId = some mediaId
  match distinctWorks (aliases.map Alias.workId) with
  | [] => .ok none
  | [workId] => .ok (some workId)
  | _ => .error ("media " ++ mediaId ++ " aliases resolve to multiple works; refusing to pair")

/-- The work a media row resolves to: its link's, or the one its aliases prove. -/
def workOfSide (s : Store) (mediaId : String) (link : Option MediaLink) :
    Except String (Option String) :=
  match link with
  | some link => .ok (some link.workId)
  | none => workForUnlinkedMedia s mediaId

/-- The first writer of a metadata row. -/
def firstWriter (metadata : MediaMetadata) : String :=
  ((metadata.writers.bind fun writers => (split ',' writers).head?).map trim).getD ""

/-- Take the title and author one media row's metadata adds. -/
def nameFrom (s : Store) (named : String × String) (mediaId : String) : String × String :=
  match (s.mediaById mediaId).bind Media.metadata with
  | none => named
  | some metadata =>
    (if named.1 = "" then metadata.title.getD "" else named.1,
      if named.2 = "" then firstWriter metadata else named.2)

section Calls

variable [Host]

/-- Mint a work for a pair neither side belongs to yet, named after its books. -/
def createWork (now : Int) (uuid : String) (s : Store) (anchorMediaId fallbackMediaId : String) :
    Store :=
  let (title, author) := [anchorMediaId, fallbackMediaId].foldl (nameFrom s) ("", "")
  { s with
    works := s.works ++
      [{ id := uuid, title := title, author := author, pending := false
         createdAt := Host.toRfc3339 now }] }

/-- The link a pairing write adds. It names no digest. -/
def pairLink (now : Int) (uuid mediaId workId : String) (status : PairStatus)
    (evidence : PairEvidence) : MediaLink :=
  { id := uuid, mediaId := mediaId, workId := workId, editionSha := ""
    resolutionStatus := .unverified, createdAt := Host.toRfc3339 now, pairStatus := status
    pairEvidence := some evidence }

/-- The verdict a link has after a write: a confirmed link is never downgraded. -/
def nextStatus (current status : PairStatus) : PairStatus :=
  if (status = .confirmed ∧ current ≠ .confirmed) ∨ (current = .suggested ∧ status = .suggested)
  then status else current

/-- The evidence a link has after a write: weaker evidence never replaces it. -/
def nextEvidence (current : Option PairEvidence) (evidence : PairEvidence) : PairEvidence :=
  match current with
  | some current => if evidence.rank ≤ current.rank then current else evidence
  | none => evidence

/-- Rewrite a link row by its identity. -/
def updateLink (s : Store) (id : String) (f : MediaLink → MediaLink) : Store :=
  { s with links := updateAt MediaLink.id id f s.links }

/-- Write one side of a pair, and say whether the row changed. A new link moves
the work's live records above the feed's high water. -/
def upsertLink (now : Int) (uuid : String) (s : Store) (mediaId workId : String)
    (existing : Option MediaLink) (status : PairStatus) (evidence : PairEvidence) :
    Except String (Store × Bool) :=
  match existing with
  | none =>
    -- `(user_id, media_id)` is a unique index.
    if (s.linkForMedia mediaId).isSome then
      .error "UNIQUE constraint failed: liseur_sync_media_links.user_id, media_id"
    else
      let s := { s with links := s.links ++ [pairLink now uuid mediaId workId status evidence] }
      .ok ((resequenceWorkAnnotations s workId).1, true)
  | some existing =>
    if existing.workId ≠ workId then
      .error "pairing cannot re-home a media link between work identities"
    else
      let next := nextStatus existing.pairStatus status
      let why := nextEvidence existing.pairEvidence evidence
      if next = existing.pairStatus ∧ some why = existing.pairEvidence then .ok (s, false)
      else
        .ok (updateLink s existing.id
          (fun link => { link with pairStatus := next, pairEvidence := some why }), true)

/-- A refusal of one of the two links about the work. -/
def refusalOf (workId : String) (links : List MediaLink) : Option MediaLink :=
  links.find? fun link => link.workId = workId && link.pairStatus = .rejected

/-- Write both sides of a pair, once the work is known. -/
def writeSides (now : Int) (ids : PairIds) (s : Store) (anchorMediaId otherMediaId : String)
    (anchor other : Option MediaLink) (workId : String) (status : PairStatus)
    (evidence : PairEvidence) : Auto PairOutcome :=
  match refusalOf workId (anchor.toList ++ other.toList) with
  | some link => (s, .ok (.unchanged (.rejected link.workId)))
  | none =>
    match upsertLink now ids.anchorLink s anchorMediaId workId anchor status evidence with
    | .error message => (s, .error message)
    | .ok (first, wroteAnchor) =>
      match upsertLink now ids.otherLink first otherMediaId workId other status evidence with
      | .error message => (first, .error message)
      | .ok (second, wroteOther) =>
        (second, .ok (if wroteAnchor || wroteOther then .written workId status
          else .unchanged (.alreadySet workId status)))

def writePair (now : Int) (ids : PairIds) (s : Store) (anchorMediaId otherMediaId : String)
    (status : PairStatus) (evidence : PairEvidence) : Auto PairOutcome :=
  let anchor := s.linkForMedia anchorMediaId
  let other := s.linkForMedia otherMediaId
  match workOfSide s anchorMediaId anchor, workOfSide s otherMediaId other with
  | .error message, _ => (s, .error message)
  | .ok _, .error message => (s, .error message)
  | .ok (some anchorWork), .ok (some otherWork) =>
    if anchorWork ≠ otherWork then
      (s, .ok (.unchanged (.workConflict otherMediaId otherWork)))
    else
      writeSides now ids s anchorMediaId otherMediaId anchor other anchorWork status evidence
  | .ok (some work), .ok none | .ok none, .ok (some work) =>
    writeSides now ids s anchorMediaId otherMediaId anchor other work status evidence
  | .ok none, .ok none =>
    writeSides now ids (createWork now ids.work s anchorMediaId otherMediaId) anchorMediaId
      otherMediaId anchor other ids.work status evidence

/-- Record a heuristic pair, or refresh the evidence of one already recorded. -/
def suggestPair (now : Int) (ids : PairIds) (s : Store) (anchorMediaId otherMediaId : String)
    (evidence : PairEvidence) : Auto PairOutcome :=
  writePair now ids s anchorMediaId otherMediaId .suggested evidence

/-- Promote a pair to a confirmed one. -/
def confirmPair (now : Int) (ids : PairIds) (s : Store) (anchorMediaId otherMediaId : String) :
    Auto PairOutcome :=
  writePair now ids s anchorMediaId otherMediaId .confirmed .manual

end Calls

/-- `pair_status`: a pair has the weaker status of its two links. -/
def pairStatus (left right : PairStatus) : PairStatus :=
  match left, right with
  | .rejected, _ | _, .rejected => .rejected
  | .suggested, _ | _, .suggested => .suggested
  | .confirmed, .confirmed => .confirmed

/-- Whether a caller asks for pairs of this status; without a wish, for all that are not refused. -/
def PairStatus.asked (found : PairStatus) : Option PairStatus → Bool
  | some wanted => found = wanted
  | none => found ≠ .rejected

/-- The other links of a media row's work, by the status of the pair. -/
def linkedMedia (s : Store) (mediaId : String) (status : Option PairStatus) : List MediaLink :=
  match s.linkForMedia mediaId with
  | none => []
  | some link =>
    if link.pairStatus = .rejected then []
    else
      let links := s.links.filter fun row => row.workId = link.workId ∧ row.mediaId ≠ mediaId
      (orderBy MediaLink.createdAt (orderBy MediaLink.id links)).filter fun candidate =>
        (pairStatus link.pairStatus candidate.pairStatus).asked status

/-- Refuse one suggested link. -/
def rejectLink (s : Store) (link : MediaLink) : Store :=
  if link.pairStatus = .suggested then
    updateLink s link.id fun row => { row with pairStatus := .rejected }
  else s

/-- Refuse a pair: only links that are still suggestions. -/
def rejectPair (s : Store) (mediaA mediaB : String) : Store × PairOutcome :=
  let links := (s.linkForMedia mediaA).toList ++ (s.linkForMedia mediaB).toList
  let refused := links.filter fun link => link.pairStatus = .suggested
  (links.foldl rejectLink s,
    match refused.getLast? with
    | some link => .written link.workId .rejected
    | none => .unchanged .noLink)

end Coppice.Models
