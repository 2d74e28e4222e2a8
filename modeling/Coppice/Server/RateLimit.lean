import Mathlib.Data.Finset.Card
import Mathlib.Data.List.MinMax
import Coppice.Std.Machine
import Coppice.Std.Table
import Coppice.Std.Text

/-!
# The rate limiter

The outer layer of the server puts a request into a class and asks that class's bucket. A Basic,
`X-API-Key` or path-key credential goes to the AUTH bucket of the calling address until the
exemption table knows its fingerprint. Requests overlap: one arrives, is checked and is answered
in three separate steps. The buckets' verdicts, the answers of the routes and the passing of time
come from outside.
-/

namespace Coppice.RateLimit

open Coppice.Std List

/-- How long a verified credential stays exempt, in nanoseconds. -/
def VERIFIED_TTL : Nat := 60 * 10 ^ 9

def VERIFIED_CAPACITY : Nat := 1024

def UNAUTHORIZED : Nat := 401

def TOO_MANY_REQUESTS : Nat := 429

inductive Class where
  | auth
  | write
  | stream
  deriving DecidableEq

inductive Method where
  | get
  | post
  | put
  | patch
  | delete
  | other
  deriving DecidableEq

inductive PathClass where
  | fixed (value : Class)
  | graphQl

/-- The digest of a secret. -/
class Sha256 (Fingerprint : Type) where
  digest : String → Fingerprint
  injective : Function.Injective digest

/-- What the limiter reads of a request. A header's characters stand for its bytes, `ip` for the
address `extract_client_ip` finds, `cookie` for the session or else the remember-me cookie. -/
structure Request (Ip : Type) where
  ip : Ip
  method : Method
  path : String
  authorization : Option String
  apiKey : Option String
  cookie : Option String
  deriving DecidableEq

/-! ## Classes of paths -/

def isQueryOverPost (path : String) : Bool :=
  path = "/api/v2/version" ||
    ((startsWith "/api/v1/" path || startsWith "/komga/api/v1/" path) && endsWith "/list" path) ||
    (startsWith "/v1/" path && endsWith "/resolve" path)

def pathClass (method : Method) (path : String) : PathClass :=
  let afterKey := (stripStart "/kobo/" path).map fun rest =>
    ((splitOnce '/' rest).map (·.2)).getD ""
  if (stripStart "/api/v2/auth/" path).any fun rest => rest = "oidc/callback" || method ≠ .get then
    .fixed .auth
  else if method = .post ∧ path ∈ ["/api/v2/devices/pair/start", "/v1/login", "/v1/tokens"] then
    .fixed .auth
  else if method = .post ∧ afterKey = some "v1/auth/device" then .fixed .auth
  else if method = .get ∧ afterKey = some "v1/library/sync" then .fixed .write
  else if method = .post ∧ trimEndMatches '/' path = "/api/graphql" then .graphQl
  else if method ∉ [.post, .put, .patch, .delete] ∨ isQueryOverPost path then .fixed .stream
  else .fixed .write

/-- The class of a request. `sniffed` is what `graphql_class` makes of the body, nothing when it
refuses the request. -/
def classify {Ip : Type} (request : Request Ip) (sniffed : Option Class) : Option Class :=
  match pathClass request.method request.path with
  | .fixed value => some value
  | .graphQl => sniffed

/-! ## Credentials -/

def isBasic (authorization : String) : Bool :=
  toAsciiLowercase (.ofList (authorization.toList.take 6)) = "basic "

/-- The `{api_key}` segment of the OPDS, Kobo and KOReader paths. -/
def pathApiKey (path : String) : Option String :=
  (["/opds/", "/kobo/", "/koreader/"].findSome? (stripStart · path)).bind fun rest =>
    (split '/' rest).head?.bind fun segment =>
      if segment ∈ ["", "v1.2", "v2.0"] then none else some segment

section Credentials

variable {Ip Fingerprint : Type} [Sha256 Fingerprint] {request : Request Ip}

/-- The presented credential and whether it is verified on every request. -/
def credential (request : Request Ip) : Option Fingerprint × Bool :=
  match request.authorization, request.apiKey, pathApiKey request.path, request.cookie with
  | some authorization, _, _, _ => (some (Sha256.digest authorization), isBasic authorization)
  | none, some apiKey, _, _ => (some (Sha256.digest apiKey), true)
  | none, none, some apiKey, _ => (some (Sha256.digest apiKey), true)
  | none, none, none, some cookie => (some (Sha256.digest cookie), false)
  | none, none, none, none => (none, false)

/-- The fingerprint subject to the first-hit rule (`Identity::verifiable`). -/
def verifiable (request : Request Ip) : Option Fingerprint :=
  let presented : Option Fingerprint × Bool := credential request
  presented.1.filter fun _ => presented.2

/-- Every Basic, `X-API-Key` and path-key credential of a request, also those that `credential`
does not get to. -/
def Request.carried (request : Request Ip) : List String :=
  (request.authorization.filter isBasic).toList ++ request.apiKey.toList ++
    (pathApiKey request.path).toList

/-- The limiter looks at every credential the request carries. -/
def Request.Plain (Fingerprint : Type) [Sha256 Fingerprint] (request : Request Ip) : Prop :=
  ∀ c ∈ request.carried, verifiable request = some (Sha256.digest c : Fingerprint)

instance [DecidableEq Fingerprint] (request : Request Ip) : Decidable (request.Plain Fingerprint) :=
  inferInstanceAs (Decidable (∀ c ∈ request.carried, _))

/-- The fingerprint the limiter verifies is that of a credential of the request. -/
theorem exists_carried {fingerprint : Fingerprint}
    (presented : verifiable request = some fingerprint) :
    ∃ c ∈ request.carried, fingerprint = Sha256.digest c := by
  obtain ⟨ip, method, path, authorization, apiKey, cookie⟩ := request
  simp only [verifiable, credential, Request.carried] at presented ⊢
  generalize pathApiKey path = key at presented ⊢
  cases authorization with
  | some authorization =>
    cases basic : isBasic authorization with
    | false => simp [basic] at presented
    | true =>
      have same : Sha256.digest authorization = fingerprint := by simpa [basic] using presented
      exact ⟨authorization, by simp [basic], same.symm⟩
  | none => cases apiKey <;> cases key <;> cases cookie <;> simp_all

/-- A plain request carries at most one credential. -/
theorem Request.Plain.alone (plain : request.Plain Fingerprint) {c other : String}
    (carried : c ∈ request.carried) (otherCarried : other ∈ request.carried) : other = c := by
  have same := (plain other otherCarried).symm.trans (plain c carried)
  exact Sha256.injective (Option.some.inj same)

end Credentials

/-! ## The exemption table -/

section Table

variable {Fingerprint : Type} [DecidableEq Fingerprint] {entry : Fingerprint × Nat}
  {verified : List (Fingerprint × Nat)} {now status : Nat} {fingerprint : Fingerprint}

def isVerified (verified : List (Fingerprint × Nat)) (now : Nat)
    (fingerprint : Fingerprint) : Bool :=
  (lookup Prod.fst verified fingerprint).any fun entry => now - entry.2 < VERIFIED_TTL

/-- The table with room for one more fingerprint. -/
def evict (verified : List (Fingerprint × Nat)) (now : Nat) : List (Fingerprint × Nat) :=
  let fresh := verified.filter fun entry => now - entry.2 < VERIFIED_TTL
  if VERIFIED_CAPACITY ≤ fresh.length then
    match fresh.argmin Prod.snd with
    | some oldest => fresh.filter fun entry => entry.1 ≠ oldest.1
    | none => fresh
  else fresh

def recordVerification (verified : List (Fingerprint × Nat)) (now : Nat) (fingerprint : Fingerprint)
    (status : Nat) : List (Fingerprint × Nat) :=
  if status = UNAUTHORIZED then verified.filter fun entry => entry.1 ≠ fingerprint
  else
    let room :=
      if VERIFIED_CAPACITY ≤ verified.length ∧ (lookup Prod.fst verified fingerprint).isNone then
        evict verified now
      else verified
    (fingerprint, now) :: room.filter fun entry => entry.1 ≠ fingerprint

theorem mem_of_mem_evict (member : entry ∈ evict verified now) : entry ∈ verified := by
  unfold evict at member
  dsimp only at member
  split at member
  · split at member
    · exact mem_of_mem_filter (mem_of_mem_filter member)
    · exact mem_of_mem_filter member
  · exact mem_of_mem_filter member

/-- An answer writes the entry of its own fingerprint, and only if it is not a `401`. -/
theorem mem_recordVerification
    (member : entry ∈ recordVerification verified now fingerprint status) :
    (entry = (fingerprint, now) ∧ status ≠ UNAUTHORIZED) ∨
      (entry ∈ verified ∧ entry.1 ≠ fingerprint) := by
  unfold recordVerification at member
  split at member
  · obtain ⟨kept, different⟩ := mem_filter.mp member
    exact Or.inr ⟨kept, of_decide_eq_true different⟩
  rename_i accepted
  rcases mem_cons.mp member with new | old
  · exact Or.inl ⟨new, accepted⟩
  obtain ⟨kept, different⟩ := mem_filter.mp old
  refine Or.inr ⟨?_, of_decide_eq_true different⟩
  split at kept
  · exact mem_of_mem_evict kept
  · exact kept

theorem exists_of_isVerified (exempt : isVerified verified now fingerprint = true) :
    ∃ recorded, (fingerprint, recorded) ∈ verified ∧ now - recorded < VERIFIED_TTL := by
  obtain ⟨entry, found, fresh⟩ := (Option.any_eq_true _ _).mp exempt
  refine ⟨entry.2, ?_, of_decide_eq_true fresh⟩
  rw [← lookup_key found]
  exact lookup_mem found

end Table

/-! ## Runs -/

/-- What happened to a request: it was given a class, the AUTH bucket of its address admitted it,
it reached the routes, the routes answered. -/
inductive Event (Ip : Type) where
  | classified (request : Request Ip) (given : Class) (instant : Nat)
  | admitted (ip : Ip)
  | reached (request : Request Ip)
  | answered (request : Request Ip) (status : Nat) (instant : Nat)
  deriving DecidableEq

/-- A request in the limiter: waiting for its bucket, or running in the routes. -/
structure Pending (Ip : Type) where
  request : Request Ip
  given : Class
  running : Bool
  deriving DecidableEq

/-- The limiter, with everything that happened so far, the latest first. -/
structure State (Ip Fingerprint : Type) where
  now : Nat
  verified : List (Fingerprint × Nat)
  pending : List (Pending Ip)
  log : List (Event Ip)

inductive Action (Ip Fingerprint : Type) where
  | elapse (duration : Nat)
  /-- The iteration order of the hash map is not fixed. -/
  | rehash (order : List (Fingerprint × Nat))
  | arrive (request : Request Ip) (sniffed : Option Class)
  | check (request : Request Ip) (given : Class) (granted : Bool)
  | answer (request : Request Ip) (given : Class) (status : Nat)

section Runs

variable {Ip Fingerprint : Type} [DecidableEq Ip] [DecidableEq Fingerprint] [Sha256 Fingerprint]
  {log : List (Event Ip)} {c : String} {instant : Nat} {event : Event Ip}
  {s next : State Ip Fingerprint} {wrong : String → Prop}

/-- The class of a request after the first-hit rule. -/
def assign (s : State Ip Fingerprint) (request : Request Ip) (value : Class) : Class :=
  match (verifiable request : Option Fingerprint) with
  | some fingerprint => if isVerified s.verified s.now fingerprint then value else .auth
  | none => value

/-- The end of `handle`: whatever response leaves is recorded. -/
def respond (s : State Ip Fingerprint) (request : Request Ip) (status : Nat) :
    List (Fingerprint × Nat) :=
  match verifiable request with
  | some fingerprint => recordVerification s.verified s.now fingerprint status
  | none => s.verified

/-- The steps of `handle`, for any number of requests at once. -/
def handle : Machine (State Ip Fingerprint) (Action Ip Fingerprint)
  | .elapse duration, s => some { s with now := s.now + duration }
  | .rehash order, s => if order.Perm s.verified then some { s with verified := order } else none
  | .arrive request sniffed, s =>
    match classify request sniffed with
    | none => some s
    | some value =>
      let given := assign s request value
      some { s with
        pending := ⟨request, given, false⟩ :: s.pending
        log := .classified request given s.now :: s.log }
  | .check request given granted, s =>
    if ⟨request, given, false⟩ ∈ s.pending then
      let others := s.pending.erase ⟨request, given, false⟩
      if granted then
        some { s with
          pending := ⟨request, given, true⟩ :: others
          log := .reached request ::
            (if given = .auth then .admitted request.ip :: s.log else s.log) }
      else
        some { s with pending := others, verified := respond s request TOO_MANY_REQUESTS }
    else none
  | .answer request given status, s =>
    if ⟨request, given, true⟩ ∈ s.pending then
      some { s with
        pending := s.pending.erase ⟨request, given, true⟩
        verified := respond s request status
        log := .answered request status s.now :: s.log }
    else none

/-- A limiter no request has come to. -/
def Initial (s : State Ip Fingerprint) : Prop := s.verified = [] ∧ s.pending = [] ∧ s.log = []

/-- No request hides a credential behind another, and the limiter never answers a request with a
verifiable credential itself. -/
def Allowed : Action Ip Fingerprint → State Ip Fingerprint → Prop
  | .arrive request _, _ => request.Plain Fingerprint
  | .check request _ granted, _ => granted = true ∨ (verifiable request : Option Fingerprint) = none
  | _, _ => True

instance : ∀ action (s : State Ip Fingerprint), Decidable (Allowed action s)
  | .elapse _, _ | .rehash _, _ | .answer _ _ _, _ => inferInstanceAs (Decidable True)
  | .arrive request _, _ => inferInstanceAs (Decidable (request.Plain Fingerprint))
  | .check _ _ _, _ => inferInstanceAs (Decidable (_ ∨ _))

/-! ## What a log proves -/

omit [DecidableEq Ip] in
/-- The routes answered the credential at the instant with something other than `401`, and have
not answered it with `401` since. -/
def Proven (c : String) (instant : Nat) (log : List (Event Ip)) : Prop :=
  ∃ newer older request status, log = newer ++ .answered request status instant :: older ∧
    c ∈ request.carried ∧ status ≠ UNAUTHORIZED ∧
      ∀ later moment, .answered later UNAUTHORIZED moment ∈ newer → c ∉ later.carried

/-- The credentials of an address that reached the routes. -/
def Event.checked (ip : Ip) : Event Ip → List String
  | .reached request => if request.ip = ip then request.carried else []
  | _ => []

/-- The wrong credentials of an address that reached the routes. -/
def wrongChecked (wrong : String → Prop) [DecidablePred wrong] (ip : Ip) (log : List (Event Ip)) :
    Finset String :=
  ((log.flatMap (Event.checked ip)).filter fun c => wrong c).toFinset

/-- How many requests of an address the AUTH bucket admitted. -/
def admissions (ip : Ip) (log : List (Event Ip)) : Nat := log.count (.admitted ip)

/-- The routes answer every wrong credential with `401`. -/
def Rejects (wrong : String → Prop) (log : List (Event Ip)) : Prop :=
  ∀ request status instant, .answered request status instant ∈ log →
    (∃ c ∈ request.carried, wrong c) → status = UNAUTHORIZED

omit [DecidableEq Ip] in
theorem Proven.push (proven : Proven c instant log)
    (kept : ∀ later moment, event = .answered later UNAUTHORIZED moment → c ∉ later.carried) :
    Proven c instant (event :: log) := by
  obtain ⟨newer, older, request, status, rfl, carried, accepted, since⟩ := proven
  refine ⟨event :: newer, older, request, status, rfl, carried, accepted, ?_⟩
  intro later moment member
  rcases mem_cons.mp member with same | member
  · exact kept later moment same.symm
  · exact since later moment member

omit [DecidableEq Ip] in
theorem Proven.mem (proven : Proven c instant log) :
    ∃ request status, .answered request status instant ∈ log := by
  obtain ⟨newer, older, request, status, rfl, -⟩ := proven
  exact ⟨request, status, by simp⟩

omit [DecidableEq Ip] in
theorem Proven.right (proven : Proven c instant log)
    (rejects : Rejects wrong log) : ¬ wrong c := by
  obtain ⟨newer, older, request, status, rfl, carried, accepted, -⟩ := proven
  intro bad
  exact accepted (rejects request status instant (by simp) ⟨c, carried, bad⟩)

omit [DecidableEq Ip] in
theorem Rejects.older (rejects : Rejects wrong (event :: log)) :
    Rejects wrong log :=
  fun request status instant member =>
    rejects request status instant (mem_cons_of_mem _ member)

section Counting

variable (wrong : String → Prop) [DecidablePred wrong] (ip : Ip)

/-- Only an event that reaches the routes with a wrong credential adds to the wrong ones. -/
theorem wrongChecked_push (right : ∀ c ∈ event.checked ip, ¬ wrong c) :
    wrongChecked wrong ip (event :: log) = wrongChecked wrong ip log := by
  have none : (event.checked ip).filter (fun c => wrong c) = [] := by
    rw [filter_eq_nil_iff]
    intro c checked
    simpa using right c checked
  unfold wrongChecked
  rw [flatMap_cons, filter_append, none, nil_append]

omit [DecidableEq Fingerprint] in
/-- A plain request adds at most its one credential. -/
theorem wrongChecked_reached (plain : request.Plain Fingerprint) :
    (wrongChecked wrong ip (.reached request :: log)).card ≤
      (wrongChecked wrong ip log).card + if request.ip = ip then 1 else 0 := by
  by_cases mine : request.ip = ip
  · cases first : request.carried with
    | nil =>
      rw [wrongChecked_push]
      · exact Nat.le_add_right _ _
      · simp [Event.checked, first]
    | cons c rest =>
      have within : wrongChecked wrong ip (.reached request :: log) ⊆
          insert c (wrongChecked wrong ip log) := by
        intro other member
        simp only [wrongChecked, mem_toFinset, mem_filter, flatMap_cons,
          mem_append, decide_eq_true_eq, Finset.mem_insert] at member ⊢
        obtain ⟨own | before, bad⟩ := member
        · simp only [Event.checked, if_pos mine] at own
          exact Or.inl (plain.alone (by simp [first]) own)
        · exact Or.inr ⟨before, bad⟩
      rw [if_pos mine]
      exact (Finset.card_le_card within).trans (Finset.card_insert_le _ _)
  · rw [wrongChecked_push]
    · exact Nat.le_add_right _ _
    · simp [Event.checked, mine]

end Counting

/-! ## The invariant -/

/-- The routes answered the credential in the sixty seconds before the instant. -/
def Recent (c : String) (instant : Nat) (log : List (Event Ip)) : Prop :=
  ∃ answered, Proven c answered log ∧ answered ≤ instant ∧ instant < answered + VERIFIED_TTL

/-- Whatever was given another class than AUTH was proven when it came. -/
def Explained (log : List (Event Ip)) : Prop :=
  ∀ newer older request given instant, log = newer ++ .classified request given instant :: older →
    given ≠ .auth → ∀ c ∈ request.carried, Recent c instant older

/-- What the limiter knows is backed by its log. -/
structure Backed (s : State Ip Fingerprint) : Prop where
  recorded : ∀ entry ∈ s.verified, entry.2 ≤ s.now ∧
    ∃ c, entry.1 = Sha256.digest c ∧ Proven c entry.2 s.log
  plain : ∀ p ∈ s.pending, p.request.Plain Fingerprint
  right : ∀ p ∈ s.pending, p.given ≠ .auth → ∀ c ∈ p.request.carried,
    ∀ wrong, Rejects wrong s.log → ¬ wrong c
  explained : Explained s.log

/-- Every wrong credential that reached the routes was admitted by an AUTH bucket. -/
def Bounded (log : List (Event Ip)) : Prop :=
  ∀ (wrong : String → Prop) [DecidablePred wrong] (ip : Ip), Rejects wrong log →
    (wrongChecked wrong ip log).card ≤ admissions ip log

omit [DecidableEq Ip] in
theorem Explained.push (explained : Explained log)
    (new : ∀ request given instant, event = .classified request given instant → given ≠ .auth →
      ∀ c ∈ request.carried, Recent c instant log) : Explained (event :: log) := by
  intro newer older request given instant parts
  cases newer with
  | nil =>
    obtain ⟨same, rfl⟩ := List.cons.inj parts
    exact new request given instant same
  | cons first newer =>
    obtain ⟨-, rest⟩ := List.cons.inj parts
    exact explained newer older request given instant rest

theorem Bounded.push (bounded : Bounded log) (elsewhere : ∀ ip, event.checked ip = []) :
    Bounded (event :: log) := by
  intro wrong _ ip rejects
  rw [wrongChecked_push wrong ip (by simp [elsewhere])]
  exact (bounded wrong ip rejects.older).trans count_le_count_cons

omit [DecidableEq Ip] in
/-- A request that is given another class than AUTH carries only proven credentials. -/
theorem Backed.recent (backed : Backed s) (plain : request.Plain Fingerprint) {value : Class}
    (outside : assign s request value ≠ .auth) (carried : c ∈ request.carried) :
    Recent c s.now s.log := by
  unfold assign at outside
  rw [plain c carried] at outside
  dsimp only at outside
  split at outside
  · rename_i exempt
    obtain ⟨answered, known, fresh⟩ := exists_of_isVerified exempt
    obtain ⟨past, c', same, proven⟩ := backed.recorded _ known
    obtain rfl := Sha256.injective same
    dsimp only at past proven
    exact ⟨answered, proven, past, by omega⟩
  · exact absurd rfl outside

omit [DecidableEq Ip] [DecidableEq Fingerprint] in
/-- Events that are not answers take nothing away. -/
theorem Backed.push (backed : Backed s)
    (quiet : ∀ request status instant, event ≠ .answered request status instant)
    (new : ∀ request given instant, event = .classified request given instant → given ≠ .auth →
      ∀ c ∈ request.carried, Recent c instant s.log) :
    Backed { s with log := event :: s.log } where
  __ := backed
  recorded entry member := by
    obtain ⟨past, c, same, proven⟩ := backed.recorded entry member
    exact ⟨past, c, same, proven.push fun _ _ answered => absurd answered (quiet _ _ _)⟩
  right p member outside c carried wrong rejects :=
    backed.right p member outside c carried wrong rejects.older
  explained := backed.explained.push new

omit [DecidableEq Ip] [DecidableEq Fingerprint] in
/-- Requests may leave or go on as they are. -/
theorem Backed.requeue (backed : Backed s) {pending : List (Pending Ip)}
    (known : ∀ p ∈ pending, ∃ q ∈ s.pending, q.request = p.request ∧ q.given = p.given) :
    Backed { s with pending } where
  __ := backed
  plain p member := by
    obtain ⟨q, waiting, request, -⟩ := known p member
    exact request ▸ backed.plain q waiting
  right p member := by
    obtain ⟨q, waiting, request, given⟩ := known p member
    rw [← request, ← given]
    exact backed.right q waiting

omit [DecidableEq Ip] in
theorem Backed.arrive (backed : Backed s) (plain : request.Plain Fingerprint) (value : Class) :
    Backed { s with
      pending := ⟨request, assign s request value, false⟩ :: s.pending
      log := .classified request (assign s request value) s.now :: s.log } := by
  have pushed : Backed
      { s with log := .classified request (assign s request value) s.now :: s.log } := by
    refine backed.push nofun ?_
    rintro _ _ _ ⟨⟩ outside c carried
    exact backed.recent plain outside carried
  refine ⟨pushed.recorded, forall_mem_cons.mpr ⟨plain, pushed.plain⟩,
    forall_mem_cons.mpr ⟨?_, pushed.right⟩, pushed.explained⟩
  intro outside c carried wrong rejects
  obtain ⟨_, proven, -⟩ := backed.recent plain outside carried
  exact proven.right rejects.older

omit [DecidableEq Ip] in
/-- The routes' answer is what the table is allowed to remember. -/
theorem Backed.answer (backed : Backed s) (plain : request.Plain Fingerprint) (status : Nat) :
    Backed { s with
      verified := respond s request status
      log := .answered request status s.now :: s.log } where
  recorded entry member := by
    dsimp only [respond] at member
    split at member
    · rename_i fingerprint presented
      rcases mem_recordVerification member with ⟨rfl, accepted⟩ | ⟨known, different⟩
      · obtain ⟨c, carried, same⟩ := exists_carried presented
        refine ⟨Nat.le_refl _, c, same, [], s.log, request, status, rfl, carried, accepted, ?_⟩
        exact fun _ _ none => absurd none not_mem_nil
      obtain ⟨past, c, same, proven⟩ := backed.recorded entry known
      refine ⟨past, c, same, proven.push ?_⟩
      rintro later moment ⟨⟩ carried
      exact different (same.trans (Option.some.inj ((plain c carried).symm.trans presented)))
    · rename_i presented
      obtain ⟨past, c, same, proven⟩ := backed.recorded entry member
      refine ⟨past, c, same, proven.push ?_⟩
      rintro later moment ⟨⟩ carried
      rw [plain c carried] at presented
      cases presented
  plain := backed.plain
  right p member outside c carried wrong rejects :=
    backed.right p member outside c carried wrong rejects.older
  explained := backed.explained.push nofun

omit [DecidableEq Ip] [DecidableEq Fingerprint] in
/-- Being let through changes nothing the limiter knows. -/
theorem Backed.enter (backed : Backed s) (given : Class) (request : Request Ip) :
    Backed { s with
      log := .reached request ::
        (if given = .auth then .admitted request.ip :: s.log else s.log) } := by
  have admitted : Backed
      { s with log := if given = .auth then .admitted request.ip :: s.log else s.log } := by
    split
    · exact backed.push (by simp) (by simp)
    · exact backed
  exact admitted.push (by simp) (by simp)

omit [DecidableEq Fingerprint] in
/-- The AUTH bucket admits a request that reaches the routes, or nothing it carries is wrong. -/
theorem Backed.reached (backed : Backed s) (bounded : Bounded s.log) {given : Class}
    (waiting : ⟨request, given, false⟩ ∈ s.pending) :
    Bounded (.reached request ::
      (if given = .auth then .admitted request.ip :: s.log else s.log)) := by
  intro wrong _ ip rejects
  have skips : ∀ log, admissions ip (.reached request :: log) = admissions ip log := by
    simp [admissions]
  rw [skips]
  split at rejects
  · rename_i auth
    have admitted : admissions ip (.admitted request.ip :: s.log) =
        admissions ip s.log + if request.ip = ip then 1 else 0 := by
      simp [admissions, count_cons]
    rw [if_pos auth, admitted]
    refine (wrongChecked_reached wrong ip (backed.plain _ waiting)).trans ?_
    exact Nat.add_le_add_right (bounded wrong ip rejects.older.older) _
  · rename_i outside
    rw [if_neg outside, wrongChecked_push]
    · exact bounded wrong ip rejects.older
    intro c checked
    simp only [Event.checked] at checked
    split at checked
    · exact backed.right _ waiting outside c checked wrong rejects.older
    · exact absurd checked not_mem_nil

/-- Every allowed step keeps the table backed and the wrong credentials bounded. -/
theorem sound_handle {action : Action Ip Fingerprint} (sound : Backed s ∧ Bounded s.log)
    (allowed : Allowed action s) (moved : handle action s = some next) :
    Backed next ∧ Bounded next.log := by
  obtain ⟨backed, bounded⟩ := sound
  have leave : ∀ gone, ∀ p ∈ s.pending.erase gone,
      ∃ q ∈ s.pending, q.request = p.request ∧ q.given = p.given :=
    fun _ p member => ⟨p, mem_of_mem_erase member, rfl, rfl⟩
  cases action with
  | elapse duration =>
    cases moved
    refine ⟨⟨?_, backed.plain, backed.right, backed.explained⟩, bounded⟩
    intro entry member
    obtain ⟨past, known⟩ := backed.recorded entry member
    exact ⟨Nat.le_add_right_of_le past, known⟩
  | rehash order =>
    simp only [handle] at moved
    split at moved
    · rename_i same
      cases moved
      exact ⟨⟨fun entry member => backed.recorded entry (same.mem_iff.mp member), backed.plain,
        backed.right, backed.explained⟩, bounded⟩
    · cases moved
  | arrive request sniffed =>
    simp only [handle] at moved
    split at moved
    · cases moved
      exact ⟨backed, bounded⟩
    · cases moved
      exact ⟨backed.arrive allowed _, bounded.push fun _ => rfl⟩
  | check request given granted =>
    simp only [handle] at moved
    split at moved
    · rename_i waiting
      split at moved
      · cases moved
        refine ⟨(backed.enter given request).requeue ?_, backed.reached bounded waiting⟩
        exact forall_mem_cons.mpr ⟨⟨_, waiting, rfl, rfl⟩, leave _⟩
      rename_i refused
      cases moved
      have unread := allowed.resolve_left refused
      refine ⟨?_, bounded⟩
      simp only [respond, unread]
      exact backed.requeue (leave _)
    · cases moved
  | answer request given status =>
    simp only [handle] at moved
    split at moved
    · rename_i running
      cases moved
      exact ⟨(backed.answer (backed.plain _ running) status).requeue (leave _),
        bounded.push fun _ => rfl⟩
    · cases moved

omit [DecidableEq Fingerprint] in
theorem sound_initial (initial : Initial s) : Backed s ∧ Bounded s.log := by
  obtain ⟨verified, pending, log⟩ := initial
  refine ⟨⟨?_, ?_, ?_, ?_⟩, ?_⟩
  · simp [verified]
  · simp [pending]
  · simp [pending]
  · simp [Explained, log]
  · simp [Bounded, log, wrongChecked]

/-- Where no request hides a credential behind another and the limiter itself answers none that
carries a verifiable one, a credential escapes the AUTH class only after the routes answered it
with something other than `401`, in the last sixty seconds and since its last `401`. Against routes
that reject every wrong credential, an address then has no more wrong credentials checked than its
AUTH bucket admitted requests. -/
theorem only_proven_escape
    (reachable :
      ((handle : Machine (State Ip Fingerprint) _).guarded Initial Allowed).Reachable s) :
    (∀ newer older request given instant,
      s.log = newer ++ .classified request given instant :: older → given ≠ .auth →
        ∀ c ∈ request.carried, ∃ answered, Proven c answered older ∧ answered ≤ instant ∧
          instant < answered + VERIFIED_TTL) ∧
      ∀ (wrong : String → Prop) [DecidablePred wrong] (ip : Ip), Rejects wrong s.log →
        (wrongChecked wrong ip s.log).card ≤ admissions ip s.log := by
  have sound := Machine.guarded_invariant (I := fun s => Backed s ∧ Bounded s.log)
    (fun _ => sound_initial) (fun _ _ _ sound allowed => sound_handle sound allowed) reachable
  exact ⟨sound.1.explained, sound.2⟩

end Runs

/-! ## Runs to look at -/

/-- Fingerprints that keep the secret. -/
instance : Sha256 String := ⟨id, Function.injective_id⟩

/-- A Kobo download with the key in its path, from one address. -/
def kobo (authorization : Option String) : Request Nat :=
  ⟨7, .get, "/kobo/guess/v1/books/1/download", authorization, none, none⟩

def quiet : State Nat String := ⟨0, [], [], []⟩

/-- A key the routes accepted in the AUTH class is exempt a second later. -/
def proving : List (Action Nat String) :=
  [.arrive (kobo none) none, .check (kobo none) .auth true, .answer (kobo none) .auth 200,
    .elapse (10 ^ 9), .arrive (kobo none) none]

theorem only_proven_escape_sample :
    ∃ s, (handle : Machine (State Nat String) _).guardedRun Allowed proving quiet = some s ∧
      ∃ older answered, s.log = .classified (kobo none) .stream (10 ^ 9) :: older ∧
        Proven "guess" answered older := by
  obtain ⟨s, ran, log⟩ : ∃ s, handle.guardedRun Allowed proving quiet = some s ∧
      s.log = [.classified (kobo none) .stream (10 ^ 9), .answered (kobo none) 200 0,
        .reached (kobo none), .admitted 7, .classified (kobo none) .auth 0] :=
    ⟨_, rfl, by decide +kernel⟩
  have reachable : (handle.guarded Initial Allowed).Reachable s :=
    Machine.reachable_of_guardedRun ⟨rfl, rfl, rfl⟩ ran
  obtain ⟨answered, proven, -⟩ := (only_proven_escape reachable).1 [] _ _ _ _ log (by decide)
    "guess" (by decide +kernel)
  exact ⟨s, ran, _, answered, log, proven⟩

/-- The AUTH bucket refuses a key, and its next use is not an authentication attempt any more. -/
def refusedOnce : List (Action Nat String) :=
  [.arrive (kobo none) none, .check (kobo none) .auth false, .arrive (kobo none) none,
    .check (kobo none) .stream true, .answer (kobo none) .stream UNAUTHORIZED]

/-- A bearer token hides the key in the path. -/
def hidden : List (Action Nat String) :=
  [.arrive (kobo (some "Bearer x")) none, .check (kobo (some "Bearer x")) .stream true,
    .answer (kobo (some "Bearer x")) .stream UNAUTHORIZED]

/-- The routes check a wrong key that was never proven and that no AUTH bucket admitted. -/
def Escapes (actions : List (Action Nat String)) : Prop :=
  ∃ s, (handle : Machine (State Nat String) _).run actions quiet = some s ∧
    (∃ request newer older, s.log = newer ++ .classified request .stream 0 :: older ∧
      "guess" ∈ request.carried ∧ ∀ instant, ¬ Proven "guess" instant older) ∧
    Rejects (fun _ => True) s.log ∧ wrongChecked (fun _ => True) 7 s.log = {"guess"} ∧
    admissions 7 s.log = 0

theorem escapes_of_log {actions : List (Action Nat String)} {request : Request Nat}
    {older log : List (Event Nat)} (logged : (handle.run actions quiet).map State.log = some log)
    (shape : log = .answered request UNAUTHORIZED 0 :: .reached request ::
      .classified request .stream 0 :: older)
    (unanswered : ∀ event ∈ older, ∃ earlier, event = .classified earlier .auth 0)
    (carried : "guess" ∈ request.carried) (checked : wrongChecked (fun _ => True) 7 log = {"guess"})
    (admitted : admissions 7 log = 0) : Escapes actions := by
  obtain ⟨s, ran, rfl⟩ := Option.map_eq_some_iff.mp logged
  refine ⟨s, ran, ⟨request, [_, _], older, shape, carried, fun instant proven => ?_⟩, ?_, checked,
    admitted⟩
  · obtain ⟨answered, status, member⟩ := proven.mem
    obtain ⟨earlier, same⟩ := unanswered _ member
    cases same
  rw [shape]
  rintro answered status instant member -
  rcases mem_cons.mp member with same | member
  · cases same
    rfl
  rcases mem_cons.mp member with same | member
  · cases same
  rcases mem_cons.mp member with same | member
  · cases same
  · obtain ⟨earlier, same⟩ := unanswered _ member
    cases same

/-- A bucket's own refusal proves a key, and a bearer token hides one. -/
theorem unproven_credential_escapes : Escapes refusedOnce ∧ Escapes hidden := by
  constructor
  · refine @escapes_of_log refusedOnce (kobo none) [.classified (kobo none) .auth 0] _
      (by decide +kernel) rfl ?_ (by decide) (by decide +kernel) (by decide +kernel)
    rintro event member
    exact ⟨_, mem_singleton.mp member⟩
  · refine @escapes_of_log hidden (kobo (some "Bearer x")) [] _ (by decide +kernel) rfl ?_
      (by decide) (by decide +kernel) (by decide +kernel)
    exact forall_mem_nil _

end Coppice.RateLimit
