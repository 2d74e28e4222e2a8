import Coppice.Std.Batch
import Coppice.Std.Json
import Coppice.Std.Text

/-!
# Manifest chunks

A worker reports the items of a root in bounded chunks (`manifest_chunks` in
`worker/src/source_client.rs`). A chunk is measured by the frame `serde_json` makes of it; that
length is a parameter here.
-/

namespace Coppice.Worker

open Coppice.Std List

def maxSourceManifestItems : Nat := 256
def maxSourceManifestFrameBytes : Nat := 1024 * 1024

/-- One privacy-minimized source observation. -/
structure SourceManifestItem where
  workerItemId : String
  workerContentVersion : String
  relativePath : Option String
  size : Nat
  modifiedAt : Option Json
  mediaType : Option String
  quickFingerprint : Option String
  sha256 : Option String
  metadata : Option Json
  retention : Option Json

/-- A bounded page of observations for one root and revision. -/
structure SourceManifestChunk where
  batchId : String
  rootId : String
  revision : Nat
  sequence : Nat
  terminal : Bool
  items : List SourceManifestItem

inductive SourceProtocolError where
  | manifestItemLimit (actual max : Nat)
  | manifestFrameLimit (actual max : Nat)
  | invalidManifest (message : String)

def SourceProtocolError.toString : SourceProtocolError → String
  | manifestItemLimit actual max =>
    "manifest contains " ++ actual.repr ++ " items; maximum is " ++ max.repr
  | manifestFrameLimit actual max =>
    "manifest frame is " ++ actual.repr ++ " bytes; maximum is " ++ max.repr
  | invalidManifest message => "source manifest is invalid: " ++ message

inductive SourceClientError where
  | config (message : String)

def SourceManifestItem.malformed (item : SourceManifestItem) : Bool :=
  item.workerItemId = "" ∨ 256 < byteLen item.workerItemId ∨ item.workerContentVersion = "" ∨
    512 < byteLen item.workerContentVersion ∨ item.relativePath.any fun path => 2048 < byteLen path

-- `encoded_len`: the length of a chunk as a complete source JSON frame
variable (encodedLen : SourceManifestChunk → Nat) {rootId : String} {revision : Nat}
  {items before : List SourceManifestItem} {chunks : List SourceManifestChunk}

def SourceManifestChunk.validate (chunk : SourceManifestChunk) : Except SourceProtocolError Unit :=
  if chunk.batchId = "" ∨ 256 < byteLen chunk.batchId ∨ chunk.rootId = "" ∨
      128 < byteLen chunk.rootId then
    .error (.invalidManifest "manifest identity is missing or too long")
  else if chunk.items.any SourceManifestItem.malformed then
    .error (.invalidManifest "manifest item identity is missing or too long")
  else if maxSourceManifestItems < chunk.items.length then
    .error (.manifestItemLimit chunk.items.length maxSourceManifestItems)
  else if maxSourceManifestFrameBytes < encodedLen chunk then
    .error (.manifestFrameLimit (encodedLen chunk) maxSourceManifestFrameBytes)
  else .ok ()

/-- The chunks so far, and the items that wait for one. -/
abbrev Pages := List SourceManifestChunk × List SourceManifestItem

section Cutting

variable (rootId : String) (revision : Nat)

def chunkOf (sequence : Nat) (terminal : Bool) (items : List SourceManifestItem) :
    SourceManifestChunk :=
  ⟨rootId ++ "-" ++ revision.repr, rootId, revision, sequence, terminal, items⟩

abbrev Overflows (sequence : Nat) (items : List SourceManifestItem) : Prop :=
  maxSourceManifestFrameBytes < encodedLen (chunkOf rootId revision sequence false items)

/-- The items that wait become a chunk. -/
def closePage (pages : Pages) : Pages :=
  (pages.1 ++ [chunkOf rootId revision pages.1.length false pages.2], [])

/-- One turn of the loop over the items. -/
def pushItem (pages : Pages) (item : SourceManifestItem) : Except SourceClientError Pages :=
  let pages :=
    if maxSourceManifestItems ≤ pages.2.length then closePage rootId revision pages else pages
  if Overflows encodedLen rootId revision pages.1.length (pages.2 ++ [item]) then
    if pages.2 = [] then
      .error (.config ("manifest item `" ++ item.workerItemId ++
        "` exceeds the 1 MiB frame budget"))
    else
      let pages := closePage rootId revision pages
      if Overflows encodedLen rootId revision pages.1.length [item] then
        .error (.config "manifest item exceeds the 1 MiB frame budget")
      else .ok (pages.1, [item])
  else .ok (pages.1, pages.2 ++ [item])

def lastPage (pages : Pages) : List SourceManifestChunk :=
  if pages.2 ≠ [] ∨ pages.1 = [] then
    pages.1 ++ [chunkOf rootId revision pages.1.length true pages.2]
  else pages.1.modifyLast fun last => { last with terminal := true }

/-- The chunks as they are sent. -/
def numberPages (chunks : List SourceManifestChunk) : List SourceManifestChunk :=
  chunks.mapIdx fun sequence chunk =>
    { chunk with sequence := sequence, terminal := sequence + 1 = chunks.length }

def manifestChunks (items : List SourceManifestItem) :
    Except SourceClientError (List SourceManifestChunk) := do
  let pages ← items.foldlM (pushItem encodedLen rootId revision) ([], [])
  let chunks := numberPages (lastPage rootId revision pages)
  chunks.forM fun chunk => (chunk.validate encodedLen).mapError fun error => .config error.toString
  return chunks

end Cutting

variable {encodedLen} {pages : Pages}

/-- The pages hold these items, and none is empty. -/
structure Cut (items : List SourceManifestItem) (pages : Pages) : Prop where
  joined : pages.1.flatMap SourceManifestChunk.items ++ pages.2 = items
  filled : ∀ chunk ∈ pages.1, chunk.items ≠ []

theorem Cut.closePage (cut : Cut items pages) (waits : pages.2 ≠ []) :
    Cut items (closePage rootId revision pages) where
  joined := by simpa [Worker.closePage, chunkOf] using cut.joined
  filled := by simpa [Worker.closePage, chunkOf, or_imp, forall_and, waits] using cut.filled

/-- An item goes to the pages, or is too long on its own. -/
theorem pushItem_cases (cut : Cut items pages) (item : SourceManifestItem) :
    (∃ next, pushItem encodedLen rootId revision pages item = .ok next ∧
        Cut (items ++ [item]) next ∧ next.2 ≠ []) ∨
      (∃ error, pushItem encodedLen rootId revision pages item = .error error) ∧
        ∃ sequence, Overflows encodedLen rootId revision sequence [item] := by
  have opened : Cut items
      (if maxSourceManifestItems ≤ pages.2.length then
        closePage rootId revision pages else pages) := by
    split
    · rename_i full
      exact cut.closePage (ne_nil_of_length_pos (Nat.lt_of_lt_of_le (by decide) full))
    · exact cut
  unfold pushItem
  generalize (if maxSourceManifestItems ≤ pages.2.length then closePage rootId revision pages
    else pages) = pages at opened
  dsimp only
  split
  · rename_i long
    split
    · rename_i alone
      rw [alone] at long
      exact .inr ⟨⟨_, rfl⟩, _, long⟩
    rename_i waits
    have closed : Cut items (closePage rootId revision pages) := opened.closePage waits
    split
    · rename_i long
      exact .inr ⟨⟨_, rfl⟩, _, long⟩
    · refine .inl ⟨_, rfl, ⟨?_, closed.filled⟩, by simp⟩
      rw [← closed.joined]
      simp [closePage]
  · exact .inl ⟨_, rfl, ⟨by simp [← opened.joined], opened.filled⟩, by simp⟩

theorem foldlM_pushItem (cut : Cut before pages) (waits : before ≠ [] → pages.2 ≠ [])
    (items : List SourceManifestItem) :
    (∃ next, items.foldlM (pushItem encodedLen rootId revision) pages = .ok next ∧
        Cut (before ++ items) next ∧ (before ++ items ≠ [] → next.2 ≠ [])) ∨
      (∃ error, items.foldlM (pushItem encodedLen rootId revision) pages = .error error) ∧
        ∃ item ∈ items, ∃ sequence, Overflows encodedLen rootId revision sequence [item] := by
  induction items generalizing before pages with
  | nil => exact .inl ⟨pages, rfl, by simpa using cut, by simpa using waits⟩
  | cons item items ih =>
    rw [foldlM_cons]
    rcases pushItem_cases cut item with ⟨next, pushed, cut, waits⟩ | ⟨⟨error, pushed⟩, long⟩
    · rw [pushed, append_cons]
      exact (ih cut fun _ => waits).imp id (And.imp_right fun ⟨long, member, exceeds⟩ =>
        ⟨long, mem_cons_of_mem _ member, exceeds⟩)
    · rw [pushed]
      exact .inr ⟨⟨error, rfl⟩, item, mem_cons_self, long⟩

theorem Cut.lastPage (cut : Cut items pages) (waits : items ≠ [] → pages.2 ≠ []) :
    (lastPage rootId revision pages).flatMap SourceManifestChunk.items = items ∧
      lastPage rootId revision pages ≠ [] ∧
        ∀ chunk ∈ lastPage rootId revision pages, chunk.items = [] →
          items = [] ∧ (lastPage rootId revision pages).length = 1 := by
  have joined := cut.joined
  -- the last item waits, so the other branch is never taken
  have open_ : pages.2 ≠ [] ∨ pages.1 = [] := by
    refine or_iff_not_imp_left.2 fun idle => eq_nil_iff_forall_not_mem.2 fun chunk member => ?_
    rw [not_imp_comm.1 waits idle, append_eq_nil_iff, flatMap_eq_nil_iff] at joined
    exact cut.filled chunk member (joined.1 chunk member)
  rw [Worker.lastPage, if_pos open_]
  refine ⟨by simpa [chunkOf] using joined, by simp,
    fun chunk member (empty : chunk.items = []) => ?_⟩
  rcases mem_append.1 member with old | new
  · exact absurd empty (cut.filled chunk old)
  rw [mem_singleton.1 new] at empty
  have idle : pages.2 = [] := empty
  have first := open_.resolve_left (not_not.2 idle)
  rw [first, idle] at joined
  exact ⟨joined.symm, by simp [first]⟩

theorem map_items_numberPages (chunks : List SourceManifestChunk) :
    (numberPages chunks).map SourceManifestChunk.items = chunks.map SourceManifestChunk.items := by
  refine ext_getElem? fun index => ?_
  simp [numberPages, Function.comp_def]

theorem forM_validate :
    chunks.forM (fun chunk => (chunk.validate encodedLen).mapError fun error =>
      SourceClientError.config error.toString) = .ok () ↔
        ∀ chunk ∈ chunks, chunk.validate encodedLen = .ok () := by
  refine forM_eq_ok.trans (forall₂_congr fun chunk _ => ?_)
  cases chunk.validate encodedLen <;> simp [Except.mapError]

theorem SourceManifestChunk.limits {chunk : SourceManifestChunk}
    (valid : chunk.validate encodedLen = .ok ()) :
    chunk.items.length ≤ maxSourceManifestItems ∧
      encodedLen chunk ≤ maxSourceManifestFrameBytes := by
  unfold validate at valid
  split_ifs at valid with _ _ many long
  exact ⟨Nat.le_of_not_lt many, Nat.le_of_not_lt long⟩

/-- What is sent: the items in order, in chunks numbered from zero of which the last is terminal
and, if there are items, none is empty; each within the limits. -/
structure Lossless (encodedLen : SourceManifestChunk → Nat) (items : List SourceManifestItem)
    (chunks : List SourceManifestChunk) : Prop where
  joined : chunks.flatMap SourceManifestChunk.items = items
  nonempty : chunks ≠ []
  numbered : ∀ sequence chunk, chunks[sequence]? = some chunk →
    chunk.sequence = sequence ∧ (chunk.terminal = true ↔ sequence + 1 = chunks.length)
  filled : ∀ chunk ∈ chunks, chunk.items = [] → items = [] ∧ chunks.length = 1
  limited : ∀ chunk ∈ chunks, chunk.items.length ≤ maxSourceManifestItems ∧
    encodedLen chunk ≤ maxSourceManifestFrameBytes

/-- The chunks that are sent carry the items; none are sent only if an item is too long for a
frame of its own, or a chunk as it is numbered is not valid. -/
theorem manifestChunks_lossless (encodedLen : SourceManifestChunk → Nat) (rootId : String)
    (revision : Nat) (items : List SourceManifestItem) :
    match manifestChunks encodedLen rootId revision items with
    | .ok chunks => Lossless encodedLen items chunks
    | .error _ =>
      (∃ item ∈ items, ∃ sequence, Overflows encodedLen rootId revision sequence [item]) ∨
        ∃ pages, items.foldlM (pushItem encodedLen rootId revision) ([], []) = .ok pages ∧
          ∃ chunk ∈ numberPages (lastPage rootId revision pages),
            chunk.validate encodedLen ≠ .ok () := by
  have start : Cut [] ([], []) := ⟨rfl, by simp⟩
  unfold manifestChunks
  rcases foldlM_pushItem start (by simp) items with ⟨pages, ran, cut, waits⟩ |
    ⟨⟨error, failed⟩, long⟩
  · obtain ⟨joined, nonempty, filled⟩ := cut.lastPage waits
    rw [ran]
    dsimp only [bind, Except.bind, pure, Except.pure]
    cases checked : (numberPages (lastPage rootId revision pages)).forM fun chunk =>
        (chunk.validate encodedLen).mapError fun error =>
          SourceClientError.config error.toString with
    | error refusal =>
      refine .inr ⟨pages, rfl, ?_⟩
      by_contra valid
      push Not at valid
      rw [forM_validate.2 valid] at checked
      cases checked
    | ok done =>
      have valid := forM_validate.1 checked
      have sent := map_items_numberPages (lastPage rootId revision pages)
      have length : (numberPages (lastPage rootId revision pages)).length = _ := length_mapIdx
      refine ⟨?_, ?_, ?_, ?_, fun chunk member => SourceManifestChunk.limits (valid chunk member)⟩
      · rw [flatMap_def, sent, ← flatMap_def]
        exact joined
      · exact ne_nil_of_length_pos (length ▸ length_pos_of_ne_nil nonempty)
      · intro sequence chunk found
        simp only [numberPages, getElem?_mapIdx, Option.map_eq_some_iff] at found
        obtain ⟨old, -, rfl⟩ := found
        exact ⟨rfl, by simp [length]⟩
      · intro chunk member empty
        obtain ⟨old, listed, same⟩ := mem_map.1 (sent ▸ mem_map_of_mem member)
        exact length ▸ filled old listed (same.trans empty)
  · rw [failed]
    exact .inl long

end Coppice.Worker
