import Coppice.Std.System
import Coppice.LiseurSync.Registry

/-!
# Resolutions in flight

A resolution looks up one alias after another, reads files, looks up one edition
after another, and opens its write transaction last; other resolutions may commit
between any two of these. `ResolveCall.advance` is one such step, and the world
runs any number of calls. What the write transaction checks again is enough: no
key is ever mapped to a second work, and what one call mapped, every later call
finds.
-/

namespace Coppice.LiseurSync

open Coppice.Std Models Models.Store List

/-- Where a resolution is. -/
inductive ResolvePhase where
  /-- Identifiers left to look up, and the works found. -/
  | aliases (rest : List Identifier) (matched : List String)
  /-- The editions of the request, those left to look up, and the works found. -/
  | editions (candidates rest : List EditionCandidate) (matched : List String)
  /-- About to open the write transaction. -/
  | write (candidates : List EditionCandidate) (existing : Option String)
  | done (answer : Except SyncError ResolveResult)

/-- A resolution in flight. -/
structure ResolveCall where
  now : Int
  ids : ResolveIds
  request : ResolveRequest
  phase : ResolvePhase

namespace ResolveCall

/-- The identifiers the call looks up. -/
def identifiers (call : ResolveCall) : List Identifier :=
  call.request.identifiers.map normalizedIdentifier

/-- A call that has read nothing yet. -/
def started (now : Int) (ids : ResolveIds) (request : ResolveRequest) : ResolveCall :=
  { now := now, ids := ids, request := request
    phase := .aliases (request.identifiers.map normalizedIdentifier) [] }

section Steps

variable [Host] {call : ResolveCall} {s s' : Store} {workId : String}

/-- What follows the last alias. -/
def afterAliases (call : ResolveCall) (s : Store) (matched : List String) : ResolvePhase :=
  match agreedWork matched with
  | .error refusal => .done (.error refusal)
  | .ok known =>
    match known with
    | some workId =>
      if onlySuggests call.request then
        .done (.ok { workId := workId, confidence := .low, created := false })
      else
        match editionCandidates s call.identifiers with
        | .error refusal => .done (.error refusal)
        | .ok candidates => .write candidates (some workId)
    | none =>
      match editionCandidates s call.identifiers with
      | .error refusal => .done (.error refusal)
      | .ok candidates => .editions candidates candidates []

/-- What follows the last edition. -/
def afterEditions (candidates : List EditionCandidate) (matched : List String) : ResolvePhase :=
  match agreedWork matched with
  | .error refusal => .done (.error refusal)
  | .ok existing => .write candidates existing

/-- One step of a call: a single read, or the whole write transaction. -/
def next (call : ResolveCall) (s : Store) : Store × ResolvePhase :=
  match call.phase with
  | .aliases (identifier :: rest) matched =>
    (s, .aliases rest (matched ++ (aliasWork s identifier).toList))
  | .aliases [] matched => (s, call.afterAliases s matched)
  | .editions candidates (candidate :: rest) matched =>
    (s, .editions candidates rest (matched ++ (editionWork s candidate.editionSha).toList))
  | .editions candidates [] matched => (s, afterEditions candidates matched)
  | .write candidates existing =>
    let (s, answer) := commit s
      (resolveWrite call.now call.ids s call.request candidates existing)
    (s, .done answer)
  | .done answer => (s, .done answer)

/-- The store and the call after one step of the call. -/
def advance (call : ResolveCall) (s : Store) : Store × ResolveCall :=
  ((call.next s).1, { call with phase := (call.next s).2 })

/-- The ways a call leaves its aliases. -/
inductive LeftAliases (call : ResolveCall) (s : Store) (matched : List String) :
    ResolvePhase → Prop where
  | refused (refusal : SyncError) : LeftAliases call s matched (.done (.error refusal))
  | suggested {workId : String} (agreed : agreedWork matched = .ok (some workId)) :
      LeftAliases call s matched
        (.done (.ok { workId := workId, confidence := .low, created := false }))
  | known {workId : String} {candidates : List EditionCandidate}
      (agreed : agreedWork matched = .ok (some workId))
      (reads : editionCandidates s call.identifiers = .ok candidates) :
      LeftAliases call s matched (.write candidates (some workId))
  | unknown {candidates : List EditionCandidate} (agreed : agreedWork matched = .ok none)
      (reads : editionCandidates s call.identifiers = .ok candidates) :
      LeftAliases call s matched (.editions candidates candidates [])

theorem afterAliases_left (call : ResolveCall) (s : Store) (matched : List String) :
    LeftAliases call s matched (call.afterAliases s matched) := by
  unfold afterAliases
  cases agreed : agreedWork matched with
  | error refusal => exact .refused refusal
  | ok known =>
    cases reads : editionCandidates s call.identifiers with
    | error refusal =>
      cases known with
      | none => exact .refused refusal
      | some workId =>
        simp only
        split
        · exact .suggested agreed
        · exact .refused refusal
    | ok candidates =>
      cases known with
      | none => exact .unknown agreed reads
      | some workId =>
        simp only
        split
        · exact .suggested agreed
        · exact .known agreed reads

/-- A call that runs alone: its store and itself after any number of steps. -/
def alone (steps : Nat) (state : Store × ResolveCall) : Store × ResolveCall :=
  (fun state : Store × ResolveCall => state.2.advance state.1)^[steps] state

theorem alone_add (first second : Nat) (state : Store × ResolveCall) :
    alone (second + first) state = alone second (alone first state) :=
  Function.iterate_add_apply _ _ _ _

/-- A bound on the steps a call has left. -/
def remaining (call : ResolveCall) : Nat :=
  match call.phase with
  | .aliases rest _ => rest.length + call.identifiers.length + 3
  | .editions _ rest _ => rest.length + 2
  | .write _ _ => 1
  | .done _ => 0

theorem advance_remaining (call : ResolveCall) (s : Store) (running : call.remaining ≠ 0) :
    (call.advance s).2.remaining < call.remaining := by
  obtain ⟨now, ids, request, phase⟩ := call
  cases phase with
  | aliases rest matched =>
    cases rest with
    | cons identifier rest => simp [advance, next, remaining, identifiers]
    | nil =>
      have left := afterAliases_left ⟨now, ids, request, .aliases [] matched⟩ s matched
      simp only [advance, next]
      generalize afterAliases _ s matched = phase at left
      cases left with
      | refused refusal | suggested agreed | known agreed reads => simp [remaining]
      | unknown agreed reads =>
        have bound := editionCandidates_length reads
        simp only [remaining, identifiers, length_nil] at bound ⊢
        omega
  | editions candidates rest matched =>
    cases rest with
    | cons candidate rest => simp [advance, next, remaining]
    | nil =>
      simp only [advance, next, afterEditions]
      cases agreedWork matched <;> simp [remaining]
  | write candidates existing => simp [advance, next, remaining]
  | done answer => exact absurd rfl running

/-- Only a call that succeeds writes. -/
theorem advance_store (call : ResolveCall) (s : Store)
    (refused : ∀ result, (call.advance s).2.phase ≠ .done (.ok result)) :
    (call.advance s).1 = s := by
  obtain ⟨now, ids, request, phase⟩ := call
  cases phase with
  | aliases rest matched | editions candidates rest matched => cases rest <;> rfl
  | done answer => rfl
  | write candidates existing =>
    simp only [advance, next] at refused ⊢
    cases outcome : resolveWrite now ids s request candidates existing with
    | error refusal => rfl
    | ok result =>
      rw [outcome] at refused
      exact absurd rfl (refused result.2)

/-- What a call has read and answered is true of the store. -/
def Sound (s : Store) (call : ResolveCall) : Prop :=
  match call.phase with
  | .aliases _ _ => True
  | .editions candidates _ _ => editionCandidates s call.identifiers = .ok candidates
  | .write candidates _ => editionCandidates s call.identifiers = .ok candidates
  | .done (.ok result) => result.confidence = .high →
      Registered s call.identifiers result.workId
  | .done (.error _) => True

theorem Sound.grows (sound : call.Sound s) (grows : Grows s s') : call.Sound s' := by
  obtain ⟨now, ids, request, phase⟩ := call
  cases phase with
  | aliases rest matched => trivial
  | editions candidates rest matched | write candidates existing =>
    exact (editionCandidates_congr grows _).trans sound
  | done answer =>
    cases answer with
    | error refusal => trivial
    | ok result => exact fun high => (sound high).grows grows

/-- A step of a call keeps the registry, and what the call knows. -/
theorem advance_sound (registry : Registry s) (stamped : Stamped s) (sound : call.Sound s) :
    Registry (call.advance s).1 ∧ Stamped (call.advance s).1 ∧ Grows s (call.advance s).1 ∧
      (call.advance s).2.Sound (call.advance s).1 := by
  obtain ⟨now, ids, request, phase⟩ := call
  cases phase with
  | aliases rest matched =>
    cases rest with
    | cons identifier rest => exact ⟨registry, stamped, .refl s, trivial⟩
    | nil =>
      refine ⟨registry, stamped, .refl s, ?_⟩
      have left := afterAliases_left ⟨now, ids, request, .aliases [] matched⟩ s matched
      simp only [advance, next]
      generalize afterAliases _ s matched = phase at left
      cases left with
      | refused refusal => trivial
      | suggested agreed => exact nofun
      | known agreed reads | unknown agreed reads => exact reads
  | editions candidates rest matched =>
    cases rest with
    | cons candidate rest => exact ⟨registry, stamped, .refl s, sound⟩
    | nil =>
      refine ⟨registry, stamped, .refl s, ?_⟩
      simp only [advance, next, afterEditions]
      cases agreedWork matched with
      | error refusal => trivial
      | ok existing => exact sound
  | done answer => exact ⟨registry, stamped, .refl s, sound⟩
  | write candidates existing =>
    simp only [advance, next]
    cases outcome : resolveWrite now ids s request candidates existing with
    | error refusal => exact ⟨registry, stamped, .refl s, trivial⟩
    | ok result =>
      obtain ⟨kept, grows, stamps, registered⟩ :=
        resolveWrite_registered registry sound outcome
      exact ⟨kept, stamps stamped, grows, fun _ => registered⟩

/-- The call is about identifiers that are mapped to the work, and has found nothing
else. -/
def Settling (s : Store) (workId : String) (call : ResolveCall) : Prop :=
  Registered s call.identifiers workId ∧
    match call.phase with
    | .aliases rest matched => rest ⊆ call.identifiers ∧ (∀ found ∈ matched, found = workId) ∧
        (rest ≠ [] ∨ matched ≠ [])
    | .editions _ _ _ => False
    | .write candidates existing => existing = some workId ∧
        editionCandidates s call.identifiers = .ok candidates
    | .done answer => ∃ result, answer = .ok result ∧ result.workId = workId

theorem Settling.grows (settling : call.Settling s workId) (grows : Grows s s') :
    call.Settling s' workId := by
  refine ⟨settling.1.grows grows, ?_⟩
  obtain ⟨now, ids, request, phase⟩ := call
  cases phase with
  | aliases rest matched | editions candidates rest matched | done answer => exact settling.2
  | write candidates existing =>
    exact ⟨settling.2.1, (editionCandidates_congr grows _).trans settling.2.2⟩

omit [Host] in
/-- Lookups that all found one work agree on it. -/
theorem agreedWork_of_all {works : List String} (all : ∀ found ∈ works, found = workId)
    (some : works ≠ []) : agreedWork works = .ok (Option.some workId) := by
  have same : works = List.replicate works.length workId := eq_replicate_of_mem all
  have length : works.length ≠ 0 := by simpa using some
  have distinct : distinctWorks works = [workId] := by
    rw [same]
    unfold distinctWorks
    rw [replicate_dedup length]
    rfl
  unfold agreedWork
  rw [distinct]

theorem advance_settling (registry : Registry s) (stamped : Stamped s)
    (settling : call.Settling s workId) :
    (call.advance s).2.Settling (call.advance s).1 workId := by
  obtain ⟨now, ids, request, phase⟩ := call
  obtain ⟨registered, reached⟩ := settling
  cases phase with
  | aliases rest matched =>
    obtain ⟨among, all, some⟩ := reached
    cases rest with
    | cons identifier rest =>
      refine ⟨registered, fun other member => among (mem_cons_of_mem _ member), ?_, .inr ?_⟩
      · intro found member
        rw [registered.known identifier (among mem_cons_self)] at member
        exact forall_mem_concat all rfl found member
      · rw [registered.known identifier (among mem_cons_self)]
        simp
    | nil =>
      have agreed := agreedWork_of_all all (some.resolve_left fun empty => empty rfl)
      obtain ⟨candidates, reads⟩ := editionCandidates_ok registered.readable
      refine ⟨registered, ?_⟩
      cases suggests : onlySuggests request with
      | true =>
        simp only [advance, next, afterAliases, agreed, suggests, if_true]
        exact ⟨_, rfl, rfl⟩
      | false =>
        simp only [advance, next, afterAliases, agreed, suggests, reads, Bool.false_eq_true,
          if_false]
        exact ⟨trivial, reads⟩
  | editions candidates rest matched => exact reached.elim
  | done answer => exact ⟨registered, reached⟩
  | write candidates existing =>
    obtain ⟨rfl, reads⟩ := reached
    obtain ⟨s', success⟩ := resolveWrite_ok now ids registry stamped registered reads
    obtain ⟨-, grows, -⟩ := resolveWrite_registered registry reads success
    simp only [advance, next]
    rw [success]
    exact ⟨registered.grows grows, _, rfl, rfl⟩

end Steps
end ResolveCall

section System

variable [Host]

/-- The store, and the resolutions in flight over it. -/
structure ResolveWorld where
  store : Store
  calls : List ResolveCall

/-- A call begins, a call takes one step, or another route writes what resolutions
neither read nor register. -/
inductive ResolveStep (w : ResolveWorld) : ResolveWorld → Prop where
  | start (now : Int) (ids : ResolveIds) (request : ResolveRequest) :
      ResolveStep w { w with calls := w.calls ++ [.started now ids request] }
  | advance (index : Nat) {call : ResolveCall} (running : w.calls[index]? = some call) :
      ResolveStep w
        { store := (call.advance w.store).1, calls := w.calls.set index (call.advance w.store).2 }
  | other {s' : Store} (same : SameRegistry w.store s') (stamped : Stamped s') :
      ResolveStep w { w with store := s' }

/-- Runs over any library, from an account that never resolved anything. -/
def resolveSystem : System ResolveWorld where
  Initial w := w.calls = [] ∧ w.store.works = [] ∧ w.store.editions = [] ∧ w.store.aliases = [] ∧
    w.store.links = [] ∧ (w.store.media.map Media.id).Nodup ∧ Stamped w.store
  Step := ResolveStep

/-- The invariant of a run. -/
structure ResolveInvariant (w : ResolveWorld) : Prop where
  registry : Registry w.store
  stamped : Stamped w.store
  sound : ∀ call ∈ w.calls, call.Sound w.store

variable {w : ResolveWorld}

variable {w' : ResolveWorld}

/-- A step keeps the invariant, and the three maps grow across it. -/
theorem ResolveInvariant.step (held : ResolveInvariant w)
    (transition : ResolveStep w w') : ResolveInvariant w' ∧ Grows w.store w'.store := by
  cases transition with
  | start now ids request =>
    refine ⟨⟨held.registry, held.stamped, ?_⟩, .refl _⟩
    exact forall_mem_concat held.sound trivial
  | @advance index call running =>
    obtain ⟨registry, stamped, grows, sound⟩ := ResolveCall.advance_sound held.registry
      held.stamped (held.sound call (mem_of_getElem? running))
    refine ⟨⟨registry, stamped, ?_⟩, grows⟩
    intro other member
    rcases mem_or_eq_of_mem_set member with old | rfl
    · exact (held.sound other old).grows grows
    · exact sound
  | other same stamped =>
    obtain ⟨grows, kept⟩ := same.keeps
    exact ⟨⟨kept held.registry, stamped, fun call member =>
      (held.sound call member).grows grows⟩, grows⟩

theorem invariant_of_reachable (reachable : resolveSystem.Reachable w) : ResolveInvariant w := by
  refine reachable.invariant (fun w start => ?_) fun w next held
    (transition : ResolveStep w next) => (held.step transition).1
  obtain ⟨calls, works, editions, aliases, links, media, stamped⟩ := start
  refine ⟨⟨?_, ?_, ?_, media, ?_, ?_, ?_, ?_⟩, stamped, ?_⟩
  all_goals simp [aliases, editions, links, calls]

/-- Each alias, each digest and each media row leads to one work, which exists. -/
structure OneWork (s : Store) : Prop where
  aliases : ∀ row ∈ s.aliases, s.workExists row.workId = true ∧ ∀ other ∈ s.aliases,
    other.kind = row.kind → other.value = row.value → other.workId = row.workId
  editions : ∀ row ∈ s.editions, s.workExists row.workId = true ∧ ∀ other ∈ s.editions,
    other.editionSha = row.editionSha → other.workId = row.workId
  links : ∀ row ∈ s.links, s.workExists row.workId = true ∧ ∀ other ∈ s.links,
    other.mediaId = row.mediaId → other.workId = row.workId

omit [Host] in
theorem Registry.oneWork (registry : Registry s) : OneWork s := by
  refine ⟨?_, ?_, ?_⟩
  · intro row member
    refine ⟨registry.aliasNamed row member, fun other stored kind value => ?_⟩
    rw [inj_on_of_nodup_map registry.aliasKeys stored member (Prod.ext kind value)]
  · intro row member
    refine ⟨registry.editionNamed row member, fun other stored same => ?_⟩
    rw [inj_on_of_nodup_map registry.editionKeys stored member same]
  · intro row member
    refine ⟨registry.linkNamed row member, fun other stored same => ?_⟩
    rw [inj_on_of_nodup_map registry.linkKeys stored member same]

/-- A call about identifiers mapped to a work stays on its way to that work, whatever
else runs. -/
theorem settling_steps (index : Nat) (held : ResolveInvariant w)
    (running : w.calls[index]? = some call) (settling : call.Settling w.store workId)
    (steps : resolveSystem.Steps w w') :
    ResolveInvariant w' ∧ ∃ later, w'.calls[index]? = some later ∧
      later.request = call.request ∧ later.Settling w'.store workId := by
  induction steps with
  | refl => exact ⟨held, call, running, rfl, settling⟩
  | @tail middle last _ transition ih =>
    obtain ⟨held, later, running, request, settling⟩ := ih
    have transition : ResolveStep middle last := transition
    obtain ⟨kept, grows⟩ := held.step transition
    refine ⟨kept, ?_⟩
    have inside : index < middle.calls.length := (List.getElem?_eq_some_iff.mp running).1
    cases transition with
    | start now ids request' =>
      exact ⟨later, by rw [getElem?_append_left inside]; exact running, request, settling⟩
    | @advance other moved moves =>
      by_cases same : other = index
      · subst same
        rw [running] at moves
        cases moves
        exact ⟨(later.advance middle.store).2, getElem?_set_self inside, request,
          ResolveCall.advance_settling held.registry held.stamped settling⟩
      · exact ⟨later, by rw [getElem?_set_ne same]; exact running, request,
          settling.grows grows⟩
    | other same stamped => exact ⟨later, running, request, settling.grows grows⟩

/-- Over any interleaving: every committed state maps each key to one work; what a
confident answer mapped stays mapped, and a later call about some of it answers the
same work after finitely many of its own steps; and only a call that succeeds
writes. -/
theorem work_identity_stable :
    (∀ w : ResolveWorld, resolveSystem.Reachable w → OneWork w.store) ∧
    (∀ w : ResolveWorld, resolveSystem.Reachable w → ∀ call ∈ w.calls, ∀ result,
      call.phase = .done (.ok result) → result.confidence = .high →
      (∀ identifier ∈ call.identifiers, aliasWork w.store identifier = some result.workId) ∧
      ∀ now ids (request : ResolveRequest), request.identifiers ≠ [] →
        request.identifiers.map normalizedIdentifier ⊆ call.identifiers →
        ∀ w', resolveSystem.Steps { w with calls := w.calls ++ [.started now ids request] } w' →
          ∃ later, w'.calls[w.calls.length]? = some later ∧ later.request = request ∧
            (later.remaining = 0 →
              ∃ answer, later.phase = .done (.ok answer) ∧ answer.workId = result.workId)) ∧
    (∀ (s : Store) (call : ResolveCall), call.remaining ≠ 0 →
      (call.advance s).2.remaining < call.remaining) ∧
    ∀ (s : Store) (call : ResolveCall),
      (∀ result, (call.advance s).2.phase ≠ .done (.ok result)) → (call.advance s).1 = s := by
  refine ⟨?_, ?_, fun s call => call.advance_remaining s, fun s call => call.advance_store s⟩
  · exact fun w reachable => (invariant_of_reachable reachable).registry.oneWork
  intro w reachable call member result answered high
  have held := invariant_of_reachable reachable
  have registered : Registered w.store call.identifiers result.workId := by
    have sound := held.sound call member
    unfold ResolveCall.Sound at sound
    rw [answered] at sound
    exact sound high
  refine ⟨registered.known, fun now ids request some subset w' steps => ?_⟩
  have started := (held.step (.start now ids request)).1
  have settling : (ResolveCall.started now ids request).Settling w.store result.workId :=
    ⟨registered.subset subset, List.Subset.refl _, nofun, .inl (by simpa using some)⟩
  obtain ⟨-, later, running, same, settled⟩ :=
    settling_steps w.calls.length started (by simp) settling steps
  refine ⟨later, running, same, fun finished => ?_⟩
  obtain ⟨now, ids, request, phase⟩ := later
  cases phase with
  | done answer =>
    obtain ⟨-, answer, rfl, equal⟩ := settled
    exact ⟨answer, rfl, equal⟩
  | aliases rest matched | editions candidates rest matched | write candidates existing =>
    simp [ResolveCall.remaining] at finished

/-- A call may take any number of steps in a row. -/
theorem alone_steps (index : Nat) (steps : Nat) (running : w.calls[index]? = some call) :
    resolveSystem.Steps w
      { store := (ResolveCall.alone steps (w.store, call)).1
        calls := w.calls.set index (ResolveCall.alone steps (w.store, call)).2 } := by
  obtain ⟨inside, here⟩ := List.getElem?_eq_some_iff.mp running
  induction steps with
  | zero =>
    have same : w.calls.set index call = w.calls := by
      rw [← here]
      exact set_getElem_self inside
    rw [show ResolveCall.alone 0 (w.store, call) = (w.store, call) from rfl, same]
  | succ steps ih =>
    refine ih.tail ?_
    have moved : ResolveStep
        { store := (ResolveCall.alone steps (w.store, call)).1
          calls := w.calls.set index (ResolveCall.alone steps (w.store, call)).2 } _ :=
      .advance index (getElem?_set_self inside)
    rw [set_set] at moved
    rw [Nat.add_comm, ResolveCall.alone_add]
    exact moved

end System

section Sample

local instance identityHost : Host := Host.sample

/-- A book known by a number and by a digest nothing in the library has. -/
def sampleNames : ResolveRequest :=
  { identifiers := [⟨" isbn", "1"⟩, ⟨"sha256", "AB"⟩], title := some "Title", author := none
    confirmed := false }

/-- The account after that book was resolved. -/
def sampleResolved : ResolveWorld :=
  let last := ResolveCall.alone 6
    (Store.empty "user", .started (sampleHour 1) ⟨"work", fun _ => "link"⟩ sampleNames)
  { store := last.1, calls := [last.2] }

/-- A second resolution, by the digest alone. -/
def sampleDigestOnly : ResolveCall :=
  .started (sampleHour 2) ⟨"other", fun _ => "link"⟩
    { sampleNames with identifiers := [⟨"sha256", " ab "⟩] }

theorem sampleResolved_reachable : resolveSystem.Reachable sampleResolved := by
  have start : resolveSystem.Reachable ⟨Store.empty "user", []⟩ :=
    .initial ⟨rfl, rfl, rfl, rfl, rfl, nodup_nil, by simp [Stamped, Store.empty]⟩
  have begun := start.step (.start (sampleHour 1) ⟨"work", fun _ => "link"⟩ sampleNames)
  exact begun.steps (alone_steps 0 6 rfl)

theorem work_identity_stable_sample :
    aliasWork sampleResolved.store ⟨"isbn", "1"⟩ = some "work" ∧
      ∃ answer, (ResolveCall.alone 3 (sampleResolved.store, sampleDigestOnly)).2.phase =
        .done (.ok answer) ∧ answer.workId = "work" := by
  obtain ⟨result, answered, high, work⟩ : ∃ result, (ResolveCall.alone 6 (Store.empty "user",
      .started (sampleHour 1) ⟨"work", fun _ => "link"⟩ sampleNames)).2.phase =
        .done (.ok result) ∧ result.confidence = .high ∧ result.workId = "work" :=
    ⟨_, rfl, rfl, rfl⟩
  obtain ⟨known, later⟩ := work_identity_stable.2.1 sampleResolved sampleResolved_reachable _
    (mem_singleton_self _) result answered high
  rw [work] at known later
  refine ⟨known ⟨"isbn", "1"⟩ (by decide +kernel), ?_⟩
  obtain ⟨call, running, -, settled⟩ := later (sampleHour 2) ⟨"other", fun _ => "link"⟩
    { sampleNames with identifiers := [⟨"sha256", " ab "⟩] } (by decide) (by decide +kernel) _
    (alone_steps 1 3 rfl)
  cases running
  exact settled rfl

end Sample
end Coppice.LiseurSync
