import Coppice.Server.RateLimit

/-!
# Streams of a caller

`acquire_stream` keeps a semaphore for every caller. A request takes a reference to the one of its
key, waits for a permit for a while, and the body of its response holds the permit until it is sent
or dropped. When the table is full, the semaphores that only the table refers to are dropped.
-/

namespace Coppice.RateLimit

open Coppice.Std List

variable {Key : Type}

/-- A request and the semaphore it looked up. -/
structure Stream (Key : Type) where
  id : Nat
  key : Key
  semaphore : Nat
  deriving DecidableEq

/-- The table, the free permits of every semaphore and the requests that wait for a permit or hold
one. The last two lists are the requests that ever took a permit and that returned one. -/
structure Streams (Key : Type) where
  table : List (Key × Nat)
  available : Nat → Nat
  waiting : List (Stream Key)
  streaming : List (Stream Key)
  semaphores : Nat
  requests : Nat
  taken : List Nat
  returned : List Nat

inductive StreamAction (Key : Type) where
  | enter (key : Key)
  | acquire (stream : Stream Key)
  | timeout (stream : Stream Key)
  | finish (stream : Stream Key)

namespace Streams

/-- `Arc::strong_count`: the table's reference and those of requests. -/
def strongCount (s : Streams Key) (semaphore : Nat) : Nat :=
  (s.table.map Prod.snd).count semaphore +
    ((s.waiting ++ s.streaming).map Stream.semaphore).count semaphore

/-- The table a request finds. -/
def pruned (s : Streams Key) : List (Key × Nat) :=
  if VERIFIED_CAPACITY ≤ s.table.length then s.table.filter fun entry => 1 < s.strongCount entry.2
  else s.table

variable [DecidableEq Key]

/-- The locked section of `acquire_stream`. -/
def enter (concurrency : Nat) (key : Key) (s : Streams Key) : Streams Key :=
  match lookup Prod.fst s.pruned key with
  | some entry =>
    { s with
      table := s.pruned
      waiting := ⟨s.requests, key, entry.2⟩ :: s.waiting
      requests := s.requests + 1 }
  | none =>
    { s with
      table := (key, s.semaphores) :: s.pruned
      available := fun semaphore =>
        if semaphore = s.semaphores then concurrency else s.available semaphore
      waiting := ⟨s.requests, key, s.semaphores⟩ :: s.waiting
      semaphores := s.semaphores + 1
      requests := s.requests + 1 }

/-- A waiting request gets a free permit. -/
def acquire (stream : Stream Key) (s : Streams Key) : Streams Key :=
  { s with
    available := fun semaphore =>
      if semaphore = stream.semaphore then s.available semaphore - 1 else s.available semaphore
    waiting := s.waiting.erase stream
    streaming := stream :: s.streaming
    taken := stream.id :: s.taken }

/-- The body of a response is sent or dropped, and its permit with it. -/
def finish (stream : Stream Key) (s : Streams Key) : Streams Key :=
  { s with
    available := fun semaphore =>
      if semaphore = stream.semaphore then s.available semaphore + 1 else s.available semaphore
    streaming := s.streaming.erase stream
    returned := stream.id :: s.returned }

end Streams

variable [DecidableEq Key]

def streams (concurrency : Nat) : Machine (Streams Key) (StreamAction Key) := fun action s =>
  match action with
  | .enter key => some (s.enter concurrency key)
  | .acquire stream =>
    if stream ∈ s.waiting ∧ 0 < s.available stream.semaphore then some (s.acquire stream) else none
  | .timeout stream =>
    if stream ∈ s.waiting then some { s with waiting := s.waiting.erase stream } else none
  | .finish stream => if stream ∈ s.streaming then some (s.finish stream) else none

def Streams.new : Streams Key := ⟨[], fun _ => 0, [], [], 0, 0, [], []⟩

/-- Every request refers to the semaphore the table has for its key, the permits of a semaphore are
free or held, and the permits ever taken are held or were returned. -/
structure Streams.Sound (concurrency : Nat) (s : Streams Key) : Prop where
  keys : (s.table.map Prod.fst).Nodup
  older : ∀ entry ∈ s.table, entry.2 < s.semaphores
  referenced : ∀ stream ∈ s.waiting ++ s.streaming, (stream.key, stream.semaphore) ∈ s.table
  balance : ∀ entry ∈ s.table, s.available entry.2 +
    s.streaming.countP (fun stream => stream.semaphore = entry.2) = concurrency
  ids : (s.waiting.map Stream.id ++ s.taken).Nodup
  known : ∀ id ∈ s.waiting.map Stream.id ++ s.taken, id < s.requests
  permits : s.taken.Perm (s.returned ++ s.streaming.map Stream.id)

variable {concurrency : Nat} {s : Streams Key} {stream : Stream Key}

omit [DecidableEq Key] in
theorem pruned_sublist (s : Streams Key) : s.pruned.Sublist s.table := by
  unfold Streams.pruned
  split
  · exact filter_sublist
  · exact List.Sublist.refl _

namespace Streams.Sound

variable (sound : s.Sound concurrency)
include sound

omit [DecidableEq Key] in
/-- No semaphore with a waiter or a permit is pruned. -/
theorem mem_pruned (member : stream ∈ s.waiting ++ s.streaming) :
    (stream.key, stream.semaphore) ∈ s.pruned := by
  have entry := sound.referenced stream member
  unfold Streams.pruned
  split
  · refine mem_filter.mpr ⟨entry, decide_eq_true ?_⟩
    have table : 0 < (s.table.map Prod.snd).count stream.semaphore :=
      count_pos_iff.mpr (mem_map_of_mem entry)
    have request : 0 < ((s.waiting ++ s.streaming).map Stream.semaphore).count stream.semaphore :=
      count_pos_iff.mpr (mem_map_of_mem member)
    exact Nat.add_lt_add_of_le_of_lt table request
  · exact entry

theorem enter (key : Key) : (s.enter concurrency key).Sound concurrency := by
  have pruned := pruned_sublist s
  have fresh : (s.requests :: (s.waiting.map Stream.id ++ s.taken)).Nodup :=
    nodup_cons.mpr ⟨fun old => lt_irrefl _ (sound.known _ old), sound.ids⟩
  have below : ∀ id ∈ s.requests :: (s.waiting.map Stream.id ++ s.taken), id < s.requests + 1 :=
    forall_mem_cons.mpr ⟨Nat.lt_succ_self _, fun id old => (sound.known id old).trans (by omega)⟩
  unfold Streams.enter
  split
  · rename_i entry found
    refine ⟨(pruned.map _).nodup sound.keys,
      fun entry member => sound.older entry (pruned.subset member), fun stream member => ?_,
      fun entry member => sound.balance entry (pruned.subset member), fresh, below, sound.permits⟩
    rcases mem_cons.mp member with rfl | old
    · rw [← lookup_key found]
      exact lookup_mem found
    · exact sound.mem_pruned old
  · rename_i absent
    have unused : ∀ entry ∈ s.table, entry.2 ≠ s.semaphores :=
      fun entry member => (sound.older entry member).ne
    refine ⟨?_, forall_mem_cons.mpr ⟨Nat.lt_succ_self _, fun entry old => ?_⟩,
      forall_mem_cons.mpr ⟨mem_cons_self, fun stream old => ?_⟩,
      forall_mem_cons.mpr ⟨?_, fun entry old => ?_⟩, fresh, below, sound.permits⟩
    · refine nodup_cons.mpr ⟨fun taken => ?_, (pruned.map _).nodup sound.keys⟩
      obtain ⟨entry, member, same⟩ := mem_map.mp taken
      exact lookup_eq_none.mp absent entry member same
    · exact (sound.older entry (pruned.subset old)).trans (Nat.lt_succ_self _)
    · exact mem_cons_of_mem _ (sound.mem_pruned old)
    · -- Nobody holds a permit of a semaphore that is new.
      have none : s.streaming.countP (fun stream => stream.semaphore = s.semaphores) = 0 := by
        refine countP_eq_zero.mpr fun stream held => ?_
        have entry := sound.referenced stream (mem_append_right _ held)
        simpa using unused _ entry
      simp [none]
    · have entryOld := pruned.subset old
      simpa [unused entry entryOld] using sound.balance entry entryOld

theorem acquire (waits : stream ∈ s.waiting) (free : 0 < s.available stream.semaphore) :
    (s.acquire stream).Sound concurrency := by
  have moved : (s.waiting.map Stream.id ++ s.taken).Perm
      ((s.waiting.erase stream).map Stream.id ++ stream.id :: s.taken) := by
    refine (((perm_cons_erase waits).map Stream.id).append_right s.taken).trans ?_
    exact perm_middle.symm
  refine ⟨sound.keys, sound.older, fun other member => ?_, fun entry member => ?_,
    moved.nodup_iff.mp sound.ids, fun id member => sound.known id (moved.mem_iff.mpr member),
    (sound.permits.cons stream.id).trans perm_middle.symm⟩
  · refine sound.referenced other ?_
    rcases mem_append.mp member with old | held
    · exact mem_append_left _ (mem_of_mem_erase old)
    · rcases mem_cons.mp held with rfl | held
      · exact mem_append_left _ waits
      · exact mem_append_right _ held
  · have balance := sound.balance entry member
    simp only [Streams.acquire, countP_cons, decide_eq_true_eq]
    by_cases same : stream.semaphore = entry.2
    · rw [same] at free
      simp only [same, if_true]
      omega
    · simpa [same, Ne.symm same] using balance

theorem timeout (stream : Stream Key) :
    Streams.Sound concurrency { s with waiting := s.waiting.erase stream } := by
  have fewer : ((s.waiting.erase stream).map Stream.id ++ s.taken).Sublist
      (s.waiting.map Stream.id ++ s.taken) :=
    (erase_sublist.map _).append (List.Sublist.refl _)
  refine { sound with
    referenced := fun other member => ?_
    ids := fewer.nodup sound.ids
    known := fun id member => sound.known id (fewer.subset member) }
  refine sound.referenced other ?_
  rcases mem_append.mp member with old | held
  · exact mem_append_left _ (mem_of_mem_erase old)
  · exact mem_append_right _ held

theorem finish (holds : stream ∈ s.streaming) : (s.finish stream).Sound concurrency := by
  have released := perm_cons_erase holds
  refine ⟨sound.keys, sound.older, fun other member => ?_, fun entry member => ?_,
    sound.ids, sound.known, ?_⟩
  · refine sound.referenced other ?_
    rcases mem_append.mp member with old | held
    · exact mem_append_left _ old
    · exact mem_append_right _ (mem_of_mem_erase held)
  · have balance := sound.balance entry member
    rw [released.countP_eq, countP_cons] at balance
    simp only [Streams.finish, decide_eq_true_eq] at balance ⊢
    by_cases same : stream.semaphore = entry.2
    · simp only [same, if_true] at balance ⊢
      omega
    · simpa [same, Ne.symm same] using balance
  · refine sound.permits.trans (((released.map Stream.id).append_left s.returned).trans ?_)
    exact perm_middle

end Streams.Sound

/-- The requests of the steps that take a permit. -/
def acquired : List (StreamAction Key) → List Nat :=
  filterMap fun | .acquire stream => some stream.id | _ => none

/-- The requests of the steps that end a response. -/
def finished : List (StreamAction Key) → List Nat :=
  filterMap fun | .finish stream => some stream.id | _ => none

/-- The two lists of a state are what its steps took and returned. -/
theorem run_permits {actions : List (StreamAction Key)} {start : Streams Key}
    (ran : (streams concurrency).run actions start = some s) :
    s.taken = (acquired actions).reverse ++ start.taken ∧
      s.returned = (finished actions).reverse ++ start.returned := by
  induction actions generalizing start with
  | nil =>
    cases ran
    exact ⟨rfl, rfl⟩
  | cons action rest ih =>
    obtain ⟨next, performed, ran⟩ := Option.bind_eq_some_iff.mp ran
    rw [(ih ran).1, (ih ran).2]
    cases action with
    | enter key =>
      cases performed
      unfold Streams.enter
      split <;> exact ⟨rfl, rfl⟩
    | acquire stream | timeout stream | finish stream =>
      obtain ⟨-, ⟨⟩⟩ := Option.ite_none_right_eq_some.mp performed
      simp [acquired, finished, Streams.acquire, Streams.finish]

/-- In every run, the responses of one key that hold a permit are at most as many as are allowed.
The permits of a semaphore in the table are free or held, and every permit that a step took is
either held or was returned, once, by the step that ended its response. -/
theorem streams_bounded {actions : List (StreamAction Key)}
    (ran : (streams concurrency).run actions .new = some s) :
    (∀ key, s.streaming.countP (fun stream => stream.key = key) ≤ concurrency) ∧
      (∀ entry ∈ s.table, s.available entry.2 +
        s.streaming.countP (fun stream => stream.semaphore = entry.2) = concurrency) ∧
      (acquired actions).Nodup ∧
      (acquired actions).Perm (finished actions ++ s.streaming.map Stream.id) := by
  have reached : ((streams concurrency).system (· = .new)).Reachable s :=
    Machine.reachable_of_run rfl ran
  have sound : s.Sound concurrency := by
    refine Machine.invariant (I := Streams.Sound concurrency) (fun s new => ?_)
      (fun s next action sound performed => ?_) reached
    · subst new
      constructor <;> simp [Streams.new]
    cases action with
    | enter key =>
      cases performed
      exact sound.enter key
    | acquire stream =>
      obtain ⟨⟨waits, free⟩, ⟨⟩⟩ := Option.ite_none_right_eq_some.mp performed
      exact sound.acquire waits free
    | timeout stream =>
      obtain ⟨-, ⟨⟩⟩ := Option.ite_none_right_eq_some.mp performed
      exact sound.timeout stream
    | finish stream =>
      obtain ⟨holds, ⟨⟩⟩ := Option.ite_none_right_eq_some.mp performed
      exact sound.finish holds
  obtain ⟨taken, returned⟩ := run_permits ran
  have ids := (nodup_append.mp sound.ids).2.1
  have permits := sound.permits
  simp only [taken, returned, Streams.new, append_nil, nodup_reverse] at ids permits
  refine ⟨fun key => ?_, sound.balance, ids, (reverse_perm _).symm.trans (permits.trans
    ((reverse_perm _).append_right _))⟩
  by_cases held : ∃ stream ∈ s.streaming, stream.key = key
  · obtain ⟨stream, member, rfl⟩ := held
    have entry := sound.referenced stream (mem_append_right _ member)
    -- All of them hold permits of one semaphore.
    have one : s.streaming.countP (fun other => other.key = stream.key) ≤
        s.streaming.countP (fun other => other.semaphore = stream.semaphore) := by
      refine countP_mono_left fun other held same => ?_
      have found := sound.referenced other (mem_append_right _ held)
      have pair := inj_on_of_nodup_map sound.keys found entry (by simpa using same)
      simpa using congrArg Prod.snd pair
    exact one.trans ((Nat.le_add_left _ _).trans (sound.balance _ entry).le)
  · have none : s.streaming.countP (fun stream => stream.key = key) = 0 :=
      countP_eq_zero.mpr fun stream member same => held ⟨stream, member, by simpa using same⟩
    omega

section Sample

/-- A caller that enters and gives up. -/
def idleCaller (key : Nat) : List (StreamAction Nat) := [.enter key, .timeout ⟨key, key, key⟩]

/-- Callers that give up leave their semaphores in the table until it is full. -/
theorem run_idleCallers {count : Nat} (fits : count ≤ VERIFIED_CAPACITY) :
    ∃ s, (streams 1).run ((range count).flatMap idleCaller) .new = some s ∧
      s.table = (range count).reverse.map (fun key => (key, key)) ∧ s.waiting = [] ∧
      s.streaming = [] ∧ s.semaphores = count ∧ s.requests = count := by
  induction count with
  | zero => exact ⟨_, rfl, rfl, rfl, rfl, rfl, rfl⟩
  | succ count ih =>
    obtain ⟨s, ran, table, waiting, streaming, rfl, requests⟩ := ih (by omega)
    have kept : s.pruned = s.table := if_neg (by simp [table]; omega)
    have absent : lookup Prod.fst s.pruned s.semaphores = none := by
      simpa [lookup_eq_none, kept, table] using fun key below => Nat.ne_of_lt below
    rw [range_succ, flatMap_append, Machine.run_append, ran]
    refine ⟨_, by simp [Machine.run, streams, idleCaller, Streams.enter, absent, requests]; rfl, ?_⟩
    simp [kept, table, waiting, streaming]

/-- The response of a caller's first request ends before its second request gets the permit. -/
def busyCaller (key : Nat) : List (StreamAction Nat) :=
  [.enter key, .acquire ⟨key, key, key⟩, .enter key, .finish ⟨key, key, key⟩,
    .acquire ⟨key + 1, key, key⟩]

theorem run_busyCaller {s : Streams Nat} {key : Nat} (idle : s.pruned = [])
    (waiting : s.waiting = []) (streaming : s.streaming = []) (semaphores : s.semaphores = key)
    (requests : s.requests = key) :
    ∃ last, (streams 1).run (busyCaller key) s = some last ∧ last.table = [(key, key)] := by
  have short : ¬VERIFIED_CAPACITY ≤ 1 := by decide
  have first : s.enter 1 key = { s with
      table := [(key, key)]
      available := fun semaphore => if semaphore = key then 1 else s.available semaphore
      waiting := [⟨key, key, key⟩]
      semaphores := key + 1
      requests := key + 1 } := by
    simp [Streams.enter, idle, Std.lookup, waiting, semaphores, requests]
  simp only [busyCaller, Machine.run, streams, first, Option.bind_some]
  simp [Streams.acquire, Streams.finish, Streams.enter, Streams.pruned, Std.lookup, short,
    streaming]

/-- A table full of idle callers is cleared for the next one. -/
theorem streams_bounded_sample : ∃ s, (streams 1).run
      ((range VERIFIED_CAPACITY).flatMap idleCaller ++ busyCaller VERIFIED_CAPACITY) .new = some s ∧
      s.table = [(VERIFIED_CAPACITY, VERIFIED_CAPACITY)] ∧
      s.streaming.countP (fun stream => stream.key = VERIFIED_CAPACITY) ≤ 1 ∧
      s.available VERIFIED_CAPACITY +
        s.streaming.countP (fun stream => stream.semaphore = VERIFIED_CAPACITY) = 1 := by
  obtain ⟨idle, idled, table, waiting, streaming, semaphores, requests⟩ :=
    run_idleCallers (le_refl VERIFIED_CAPACITY)
  have full : VERIFIED_CAPACITY ≤ idle.table.length := by simp [table]
  have cleared : idle.pruned = [] := by
    rw [Streams.pruned, if_pos full, filter_eq_nil_iff]
    intro entry _
    have single : idle.table.map Prod.snd = (range VERIFIED_CAPACITY).reverse := by
      simp [table, Function.comp_def]
    have once := nodup_iff_count_le_one.mp (nodup_reverse.mpr (@nodup_range VERIFIED_CAPACITY))
    simpa [Streams.strongCount, single, waiting, streaming] using once entry.2
  obtain ⟨s, ends, table⟩ := run_busyCaller cleared waiting streaming semaphores requests
  have ran : (streams 1).run ((range VERIFIED_CAPACITY).flatMap idleCaller ++
      busyCaller VERIFIED_CAPACITY) .new = some s := by
    rw [Machine.run_append, idled]
    exact ends
  have bounded := streams_bounded ran
  exact ⟨s, ran, table, bounded.1 _, bounded.2.1 (_, _) (table ▸ mem_singleton_self _)⟩

end Sample

end Coppice.RateLimit
