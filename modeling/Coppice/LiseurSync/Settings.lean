import Mathlib.Data.List.Dedup
import Mathlib.Data.String.Basic
import Coppice.Std.Batch
import Coppice.Std.Table
import Coppice.Std.Text

/-!
# Account settings

`validated_settings` and `put_settings`. A key keeps the update with the latest timestamp: the
upsert compares the formatted texts. The texts are as wide as each other, so they compare as the
instants do.
-/

namespace Coppice.LiseurSync

open Coppice.Std List

/-! ## Timestamps -/

/-- A parsed timestamp in UTC. A year has four digits in RFC 3339, an offset can move the first of
them back by one, and what is later is in the future. A leap second is the second 60. -/
structure Instant where
  year : Int
  month : Nat
  day : Nat
  hour : Nat
  minute : Nat
  second : Nat
  nanos : Nat
  years : -1 ≤ year ∧ year ≤ 9999
  calendar : month ≤ 12 ∧ day ≤ 31
  clock : hour < 24 ∧ minute < 60 ∧ second ≤ 60 ∧ nanos < 10 ^ 9

/-- An instant in units of so many nanoseconds, the coarsest field first. -/
def Instant.fields (unit : Nat) (instant : Instant) : List Nat :=
  [(instant.year + 1).toNat, instant.month, instant.day, instant.hour, instant.minute,
    instant.second, instant.nanos / unit]

/-- The last decimal digits of a number. -/
def digits : Nat → Nat → List Char
  | 0, _ => []
  | width + 1, n => Nat.digitChar (n / 10 ^ width % 10) :: digits width n

def yearText (year : Int) : List Char :=
  if 0 ≤ year then digits 4 year.toNat else '-' :: digits 4 year.natAbs

/-- Numbers in columns of a width, each with a mark behind it. -/
def columns : List (Nat × Char) → List Nat → List Char
  | (width, mark) :: rest, n :: numbers => digits width n ++ mark :: columns rest numbers
  | _, _ => []

/-- `to_rfc3339_opts(SecondsFormat::Micros, true)`. -/
def Instant.toRfc3339 (instant : Instant) : String :=
  .ofList (yearText instant.year ++ '-' ::
    columns [(2, '-'), (2, 'T'), (2, ':'), (2, ':'), (2, '.'), (6, 'Z')]
      ((instant.fields 1000).drop 1))

theorem append_lt_append {α : Type} [LinearOrder α] {xs ys : List α}
    (width : xs.length = ys.length) (more later : List α) :
    xs ++ more < ys ++ later ↔ xs < ys ∨ xs = ys ∧ more < later := by
  induction xs generalizing ys with
  | nil =>
    obtain rfl := length_eq_zero_iff.mp width.symm
    simp
  | cons x xs ih =>
    obtain ⟨y, ys, rfl⟩ := exists_cons_of_length_eq_add_one width.symm
    have rest := ih (Nat.succ.inj width)
    simp only [cons_append, cons_lt_cons_iff, rest, List.cons.injEq]
    tauto

@[simp] theorem length_digits (width n : Nat) : (digits width n).length = width := by
  induction width with
  | zero => rfl
  | succ width ih => simp [digits, ih]

theorem digitChar_lt {m n : Nat} (small : m < 10) (small' : n < 10) :
    (Nat.digitChar m < Nat.digitChar n ↔ m < n) ∧ (Nat.digitChar m = Nat.digitChar n ↔ m = n) := by
  have table : ∀ m < 10, ∀ n < 10, (Nat.digitChar m < Nat.digitChar n ↔ m < n) ∧
      (Nat.digitChar m = Nat.digitChar n ↔ m = n) := by decide
  exact table m small n small'

theorem place_lt {unit low low' : Nat} (small : low < unit) (small' : low' < unit)
    (high high' : Nat) :
    (low + unit * high < low' + unit * high' ↔ high < high' ∨ high = high' ∧ low < low') ∧
      (low + unit * high = low' + unit * high' ↔ high = high' ∧ low = low') := by
  rcases Nat.lt_trichotomy high high' with before | rfl | after
  · have step := Nat.mul_le_mul_left unit before
    rw [Nat.mul_succ] at step
    omega
  · omega
  · have step := Nat.mul_le_mul_left unit after
    rw [Nat.mul_succ] at step
    omega

/-- Digits compare as the numbers do, as far as they fit. -/
theorem digits_lt (width m n : Nat) :
    (digits width m < digits width n ↔ m % 10 ^ width < n % 10 ^ width) ∧
      (digits width m = digits width n ↔ m % 10 ^ width = n % 10 ^ width) := by
  induction width with
  | zero => simp [digits, Nat.mod_one]
  | succ width ih =>
    have tens : 0 < 10 ^ width := Nat.pow_pos (by decide)
    obtain ⟨less, same⟩ := digitChar_lt (Nat.mod_lt (m / 10 ^ width) (by decide))
      (Nat.mod_lt (n / 10 ^ width) (by decide))
    obtain ⟨placeLess, placeSame⟩ := place_lt (Nat.mod_lt m tens) (Nat.mod_lt n tens)
      (m / 10 ^ width % 10) (n / 10 ^ width % 10)
    rw [Nat.mod_pow_succ, Nat.mod_pow_succ, placeLess, placeSame, digits, digits,
      cons_lt_cons_iff, List.cons.injEq, less, same, ih.1, ih.2]
    exact ⟨Iff.rfl, Iff.rfl⟩

theorem columns_lt {widths : List (Nat × Char)} {ms ns : List Nat}
    (fits : List.Forall₂ (fun n column => n < 10 ^ column.1) ms widths)
    (fits' : List.Forall₂ (fun n column => n < 10 ^ column.1) ns widths) :
    columns widths ms < columns widths ns ↔ ms < ns := by
  induction fits generalizing ns with
  | nil =>
    cases fits'
    simp [columns]
  | @cons m column ms widths small rest ih =>
    cases fits' with
    | @cons n _ ns _ small' rest' =>
      obtain ⟨width, mark⟩ := column
      obtain ⟨less, same⟩ := digits_lt width m n
      rw [Nat.mod_eq_of_lt small, Nat.mod_eq_of_lt small'] at less same
      rw [columns, columns, append_lt_append (by simp), cons_lt_cons_iff,
        cons_lt_cons_iff, less, same, ih rest']
      simp

theorem yearText_lt {year other : Int} (range : -1 ≤ year ∧ year ≤ 9999)
    (range' : -1 ≤ other ∧ other ≤ 9999) (more later : List Char) :
    yearText year ++ more < yearText other ++ later ↔
      year < other ∨ year = other ∧ more < later := by
  have sign (k : Nat) : '-' < Nat.digitChar (k % 10) := by
    have table : ∀ digit < 10, '-' < Nat.digitChar digit := by decide
    exact table _ (Nat.mod_lt k (by decide))
  unfold yearText
  split <;> rename_i here <;> split <;> rename_i there
  · obtain ⟨less, same⟩ := digits_lt 4 year.toNat other.toNat
    rw [append_lt_append (by simp), less, same, Nat.mod_eq_of_lt (by omega),
      Nat.mod_eq_of_lt (by omega)]
    have order : (year.toNat < other.toNat ↔ year < other) ∧
        (year.toNat = other.toNat ↔ year = other) := by omega
    rw [order.1, order.2]
  · have digit := sign (year.toNat / 10 ^ 3)
    simp only [digits, cons_append, cons_lt_cons_iff, not_lt_of_gt digit, digit.ne',
      false_and, or_self, false_iff]
    omega
  · have digit := sign (other.toNat / 10 ^ 3)
    simp only [digits, cons_append, cons_lt_cons_iff, digit, true_or, true_iff]
    omega
  · obtain rfl : year = other := by omega
    rw [append_lt_append rfl]
    simp

/-- Timestamps compare as texts as they do to the microsecond. -/
theorem toRfc3339_lt (instant later : Instant) :
    instant.toRfc3339 < later.toRfc3339 ↔ instant.fields 1000 < later.fields 1000 := by
  have fits (instant : Instant) : List.Forall₂ (fun n column => n < 10 ^ column.1)
      ((instant.fields 1000).drop 1)
      [(2, '-'), (2, 'T'), (2, ':'), (2, ':'), (2, '.'), (6, 'Z')] := by
    have calendar := instant.calendar
    have clock := instant.clock
    simp only [Instant.fields, drop_one, tail_cons, List.forall₂_cons,
      List.Forall₂.nil, and_true]
    omega
  rw [Instant.toRfc3339, Instant.toRfc3339, String.lt_iff_toList_lt, String.toList_ofList,
    String.toList_ofList, yearText_lt instant.years later.years, cons_lt_cons_iff,
    columns_lt (fits instant) (fits later)]
  have years := instant.years
  have years' := later.years
  simp only [Instant.fields, drop_one, tail_cons, cons_lt_cons_iff,
    lt_self_iff_false, true_and, false_or]
  have order : ((instant.year + 1).toNat < (later.year + 1).toNat ↔ instant.year < later.year) ∧
      ((instant.year + 1).toNat = (later.year + 1).toNat ↔ instant.year = later.year) := by omega
  rw [order.1, order.2]

/-! ## Requests -/

def MAX_SETTINGS_PER_ACCOUNT : Nat := 256

def MAX_SETTING_KEY_BYTES : Nat := 128

def MAX_SETTING_VALUE_BYTES : Nat := 4 * 1024

inductive SettingValueField where
  | missing
  | null
  | string (value : String)
  | other

structure SettingRequest where
  value : SettingValueField
  updatedAt : String

/-- `LiseurSyncError`, as far as settings raise it. -/
inductive SettingsError where
  | badRequest (message : String)
  | timeInFuture (message : String)
  | conflict (message : String)
deriving DecidableEq

/-- An update, and a row of `liseur_sync_settings`. -/
structure SettingUpdate where
  key : String
  value : String
  updatedAt : String
deriving DecidableEq

/-- `DateTime::parse_from_rfc3339`, taken to UTC. -/
class Rfc3339 where
  parse : String → Option Instant

section Calls

variable [Rfc3339]

/-- One key of a request, when updates up to `limit` are not in the future. -/
def validatedSetting (limit : Instant) (key : String) (setting : SettingRequest) :
    Except SettingsError SettingUpdate :=
  if key = "" then .error (.badRequest "empty settings key")
  else if MAX_SETTING_KEY_BYTES < byteLen key then
    .error (.badRequest ("settings key too long: " ++ key))
  else
    match setting.value with
    | .null => .error (.badRequest ("settings value may not be null for key " ++ key))
    | .other => .error (.badRequest ("settings value must be a string for key " ++ key))
    | .missing => stored ""
    | .string value => stored value
where
  stored (value : String) : Except SettingsError SettingUpdate :=
    if MAX_SETTING_VALUE_BYTES < byteLen value then
      .error (.badRequest ("settings value too long for key " ++ key))
    else if '\x00' ∈ key.toList ∨ '\x00' ∈ value.toList then
      .error (.badRequest "settings key or value contains a character that cannot be stored")
    else
      match Rfc3339.parse setting.updatedAt with
      | none => .error (.badRequest ("invalid updated_at for key " ++ key))
      | some updatedAt =>
        if limit.fields 1 < updatedAt.fields 1 then
          .error (.timeInFuture ("updated_at in the future for key " ++ key))
        else .ok ⟨key, value, updatedAt.toRfc3339⟩

/-- The entries of a request have different keys and come in any order. -/
def validatedSettings (limit : Instant) (request : List (String × SettingRequest)) :
    Except SettingsError (List SettingUpdate) :=
  if request = [] then .error (.badRequest "no settings provided")
  else if MAX_SETTINGS_PER_ACCOUNT < request.length then
    .error (.badRequest "too many settings in one request")
  else do
    let updates ← request.mapM fun entry => validatedSetting limit entry.1 entry.2
    return orderBy SettingUpdate.key updates

end Calls

/-- The upsert: a stored row gives way only to an update with a later text. -/
def upsertSetting (rows : List SettingUpdate) (setting : SettingUpdate) : List SettingUpdate :=
  if (lookup SettingUpdate.key rows setting.key).all (·.updatedAt < setting.updatedAt) then
    upsert SettingUpdate.key rows setting
  else rows

def putSettings (rows settings : List SettingUpdate) : Except SettingsError (List SettingUpdate) :=
  if settings = [] then .error (.badRequest "no settings provided")
  else if MAX_SETTINGS_PER_ACCOUNT < settings.length then
    .error (.badRequest "too many settings in one request")
  else
    let settings := orderBy SettingUpdate.key settings
    let existing := (rows.map SettingUpdate.key).dedup
    let newKeys := ((settings.map SettingUpdate.key).filter (· ∉ existing)).dedup
    if MAX_SETTINGS_PER_ACCOUNT < existing.length + newKeys.length then
      .error (.conflict "too many settings for this account")
    else .ok (settings.foldl upsertSetting rows)

/-- The rows a call leaves; a refused one rolls back. -/
def servePut (rows settings : List SettingUpdate) : List SettingUpdate :=
  match putSettings rows settings with
  | .ok next => next
  | .error _ => rows

/-! ## Convergence -/

/-- The rows hold, for every key of some updates, one with the greatest text. -/
structure Newest (rows updates : List SettingUpdate) : Prop where
  known : ∀ row ∈ rows, row ∈ updates ∧
    ∀ other ∈ updates, other.key = row.key → ¬ row.updatedAt < other.updatedAt
  complete : ∀ update ∈ updates, ∃ row ∈ rows, row.key = update.key

def Distinct (rows : List SettingUpdate) : Prop := (rows.map SettingUpdate.key).Nodup

variable {rows updates others batch : List SettingUpdate}

/-- The order of the updates does not matter. -/
theorem Newest.congr (newest : Newest rows updates)
    (same : ∀ update, update ∈ updates ↔ update ∈ others) : Newest rows others := by
  refine ⟨fun row stored => ?_, fun update among =>
    newest.complete update ((same update).mpr among)⟩
  obtain ⟨member, greatest⟩ := newest.known row stored
  exact ⟨(same row).mp member, fun other among => greatest other ((same other).mpr among)⟩

theorem Distinct.upsertSetting (distinct : Distinct rows) (setting : SettingUpdate) :
    Distinct (upsertSetting rows setting) := by
  unfold LiseurSync.upsertSetting
  split
  · exact nodup_upsert distinct
  · exact distinct

theorem Newest.upsertSetting (newest : Newest rows updates) (distinct : Distinct rows)
    (setting : SettingUpdate) : Newest (upsertSetting rows setting) (setting :: updates) := by
  unfold LiseurSync.upsertSetting
  split
  · rename_i later
    have older (row : SettingUpdate) (stored : row ∈ rows) (same : row.key = setting.key) :
        row.updatedAt < setting.updatedAt := by
      rw [(lookup_eq_some_iff distinct).mpr ⟨stored, same⟩] at later
      simpa using later
    constructor
    · intro row stored
      rcases mem_upsert.mp stored with rfl | ⟨old, differ⟩
      · refine ⟨mem_cons_self,
          forall_mem_cons.mpr ⟨fun _ => lt_irrefl _, fun other before same => ?_⟩⟩
        obtain ⟨held, stored, key⟩ := newest.complete other before
        have greatest := (newest.known held stored).2 other before key.symm
        exact not_lt.mpr ((not_lt.mp greatest).trans (older held stored (key.trans same)).le)
      · obtain ⟨member, greatest⟩ := newest.known row old
        exact ⟨mem_cons_of_mem _ member,
          forall_mem_cons.mpr ⟨fun same => absurd same.symm differ, greatest⟩⟩
    · refine forall_mem_cons.mpr ⟨⟨setting, mem_upsert.mpr (.inl rfl), rfl⟩,
        fun update before => ?_⟩
      obtain ⟨row, stored, key⟩ := newest.complete update before
      by_cases same : row.key = setting.key
      · exact ⟨setting, mem_upsert.mpr (.inl rfl), same.symm.trans key⟩
      · exact ⟨row, mem_upsert.mpr (.inr ⟨stored, same⟩), key⟩
  · rename_i kept
    obtain ⟨held, found, latest⟩ : ∃ held, lookup SettingUpdate.key rows setting.key = some held ∧
        ¬ held.updatedAt < setting.updatedAt := by
      cases found : lookup SettingUpdate.key rows setting.key with
      | none => simp [found] at kept
      | some held => exact ⟨held, rfl, by simpa [found] using kept⟩
    obtain ⟨stored, key⟩ := (lookup_eq_some_iff distinct).mp found
    constructor
    · intro row old
      obtain ⟨member, greatest⟩ := newest.known row old
      refine ⟨mem_cons_of_mem _ member, forall_mem_cons.mpr ⟨fun same => ?_, greatest⟩⟩
      rwa [inj_on_of_nodup_map distinct old stored (same.symm.trans key.symm)]
    · exact forall_mem_cons.mpr ⟨⟨held, stored, key⟩, newest.complete⟩

theorem Distinct.foldl (distinct : Distinct rows) (batch : List SettingUpdate) :
    Distinct (batch.foldl LiseurSync.upsertSetting rows) :=
  foldl_rel (R := fun s s' => Distinct s → Distinct s') (fun _ distinct => distinct)
    (fun first second distinct => second (first distinct))
    (fun _ setting _ distinct => distinct.upsertSetting setting) distinct

theorem Newest.foldl (newest : Newest rows updates) (distinct : Distinct rows)
    (batch : List SettingUpdate) :
    Newest (batch.foldl LiseurSync.upsertSetting rows) (updates ++ batch) := by
  induction batch generalizing rows updates with
  | nil => simpa using newest
  | cons setting batch ih =>
    have rest := ih (newest.upsertSetting distinct setting) (distinct.upsertSetting setting)
    exact rest.congr (by simp [or_left_comm])

theorem mem_foldl_upsertSetting {row : SettingUpdate}
    (stored : row ∈ batch.foldl upsertSetting rows) : row ∈ rows ∨ row ∈ batch := by
  induction batch generalizing rows with
  | nil => exact .inl stored
  | cons setting batch ih =>
    rcases ih stored with old | new
    · unfold upsertSetting at old
      split at old
      · rcases mem_upsert.mp old with rfl | ⟨old, -⟩
        · exact .inr mem_cons_self
        · exact .inl old
      · exact .inl old
    · exact .inr (mem_cons_of_mem _ new)

/-- An accepted call upserts its settings and stays in the quota. -/
theorem putSettings_ok {settings next : List SettingUpdate} (distinct : Distinct rows)
    (ok : putSettings rows settings = .ok next) :
    next = (orderBy SettingUpdate.key settings).foldl upsertSetting rows ∧
      next.length ≤ MAX_SETTINGS_PER_ACCOUNT ∧ Distinct next := by
  unfold putSettings at ok
  split at ok
  · cases ok
  split at ok
  · cases ok
  extract_lets sorted existing newKeys at ok
  split at ok
  · cases ok
  rename_i quota
  cases ok
  have kept := distinct.foldl sorted
  refine ⟨rfl, ?_, kept⟩
  have keys : (sorted.foldl upsertSetting rows).map SettingUpdate.key ⊆ existing ++ newKeys := by
    intro key member
    obtain ⟨row, stored, rfl⟩ := mem_map.mp member
    by_cases known : row.key ∈ existing
    · exact mem_append_left _ known
    refine mem_append_right _ (List.mem_dedup.mpr (mem_filter.mpr ⟨?_, by simpa⟩))
    rcases mem_foldl_upsertSetting stored with old | new
    · exact absurd (List.mem_dedup.mpr (mem_map_of_mem old)) known
    · exact mem_map_of_mem new
  have length := (subperm_of_subset kept keys).length_le
  rw [length_map, length_append] at length
  exact length.trans (not_lt.mp quota)

theorem newest_run {batches : List (List SettingUpdate)} {final : List SettingUpdate}
    (distinct : Distinct rows) (newest : Newest rows updates)
    (ran : batches.foldlM putSettings rows = .ok final) :
    Distinct final ∧ Newest final (updates ++ batches.flatten) := by
  induction batches generalizing rows updates with
  | nil =>
    cases ran
    exact ⟨distinct, by simpa using newest⟩
  | cons batch batches ih =>
    obtain ⟨next, put, ran⟩ := bind_eq_ok.mp ran
    obtain ⟨rfl, -, -⟩ := putSettings_ok distinct put
    obtain ⟨last, all⟩ := ih (distinct.foldl _) (newest.foldl distinct _) ran
    exact ⟨last, all.congr (by simp)⟩

/-- Updates of one key with one timestamp have one value. -/
def Unambiguous (updates : List SettingUpdate) : Prop :=
  ∀ update ∈ updates, ∀ other ∈ updates, update.key = other.key →
    update.updatedAt = other.updatedAt → update.value = other.value

/-- Two tables with the newest of the same updates are the same. -/
theorem Newest.lookup_eq (clear : Unambiguous updates)
    (distinct : Distinct rows) (distinct' : Distinct others) (newest : Newest rows updates)
    (newest' : Newest others updates) (key : String) :
    lookup SettingUpdate.key rows key = lookup SettingUpdate.key others key := by
  have found {rows others : List SettingUpdate} (distinct : Distinct others)
      (newest : Newest rows updates) (newest' : Newest others updates) {row : SettingUpdate}
      (stored : row ∈ rows) : lookup SettingUpdate.key others row.key = some row := by
    obtain ⟨member, greatest⟩ := newest.known row stored
    obtain ⟨other, stored', key⟩ := newest'.complete row member
    obtain ⟨member', greatest'⟩ := newest'.known other stored'
    have time : other.updatedAt = row.updatedAt :=
      le_antisymm (not_lt.mp (greatest other member' key))
        (not_lt.mp (greatest' row member key.symm))
    have value := clear other member' row member key time
    have same : other = row := by
      cases other
      cases row
      simp_all
    exact (lookup_eq_some_iff distinct).mpr ⟨same ▸ stored', rfl⟩
  cases here : lookup SettingUpdate.key rows key with
  | some row =>
    obtain ⟨stored, rfl⟩ := (lookup_eq_some_iff distinct).mp here
    exact (found distinct' newest newest' stored).symm
  | none =>
    cases there : lookup SettingUpdate.key others key with
    | none => rfl
    | some other =>
      obtain ⟨stored, rfl⟩ := (lookup_eq_some_iff distinct').mp there
      rw [found distinct newest' newest stored] at here
      cases here

section Accepted

variable [Rfc3339] {update : SettingUpdate}

/-- A batch that came through validation at some time. -/
def Accepted (batch : List SettingUpdate) : Prop :=
  ∃ limit request, (request.map Prod.fst).Nodup ∧ validatedSettings limit request = .ok batch

theorem validatedSetting_ok {limit : Instant} {key : String} {setting : SettingRequest}
    (ok : validatedSetting limit key setting = .ok update) :
    ∃ instant : Instant, update.updatedAt = instant.toRfc3339 := by
  have stored {value : String} (ok : validatedSetting.stored limit key setting value = .ok update) :
      ∃ instant : Instant, update.updatedAt = instant.toRfc3339 := by
    unfold validatedSetting.stored at ok
    split_ifs at ok
    split at ok
    · cases ok
    split at ok
    · cases ok
    · cases ok
      exact ⟨_, rfl⟩
  unfold validatedSetting at ok
  split_ifs at ok
  split at ok
  · cases ok
  · cases ok
  · exact stored ok
  · exact stored ok

theorem Accepted.stamped (accepted : Accepted batch)
    (among : update ∈ batch) : ∃ instant : Instant, update.updatedAt = instant.toRfc3339 := by
  obtain ⟨limit, request, -, ok⟩ := accepted
  unfold validatedSettings at ok
  split_ifs at ok
  obtain ⟨updates, mapped, ok⟩ := bind_eq_ok.mp ok
  cases ok
  rw [mem_orderBy] at among
  clear * - mapped among
  induction request generalizing updates with
  | nil =>
    cases mapped
    cases among
  | cons entry request ih =>
    rw [mapM_cons] at mapped
    obtain ⟨first, valid, mapped⟩ := bind_eq_ok.mp mapped
    obtain ⟨rest, later, mapped⟩ := bind_eq_ok.mp mapped
    cases mapped
    rcases mem_cons.mp among with rfl | member
    · exact validatedSetting_ok valid
    · exact ih rest later member

/-- Any two orders of the same accepted batches that are all stored leave the same settings, each
key with an update whose timestamp is the greatest to the microsecond. An account never has more
keys than the quota, and a refused batch changes nothing. -/
theorem settings_converge :
    (∀ (first second : List (List SettingUpdate)) (rows others : List SettingUpdate),
      first.Perm second → (∀ batch ∈ first, Accepted batch) → Unambiguous first.flatten →
      first.foldlM putSettings [] = .ok rows → second.foldlM putSettings [] = .ok others →
      ∀ key, lookup SettingUpdate.key rows key = lookup SettingUpdate.key others key ∧
        ∀ update ∈ first.flatten, update.key = key → ∃ row ∈ first.flatten,
          lookup SettingUpdate.key rows key = some row ∧ ∃ instant other : Instant,
            row.updatedAt = instant.toRfc3339 ∧ update.updatedAt = other.toRfc3339 ∧
              ¬ instant.fields 1000 < other.fields 1000) ∧
    (∀ batches : List (List SettingUpdate),
      ((batches.foldl servePut []).map SettingUpdate.key).Nodup ∧
        (batches.foldl servePut []).length ≤ MAX_SETTINGS_PER_ACCOUNT) ∧
    ∀ rows settings error, putSettings rows settings = .error error →
      servePut rows settings = rows := by
  refine ⟨?_, fun batches => ?_, fun rows settings error refused => ?_⟩
  · intro first second rows others perm accepted clear ran ran' key
    have fresh : Distinct [] ∧ Newest [] [] := ⟨nodup_nil, by simp, by simp⟩
    obtain ⟨distinct, newest⟩ := newest_run fresh.1 fresh.2 ran
    obtain ⟨distinct', newest'⟩ := newest_run fresh.1 fresh.2 ran'
    have newest' : Newest others first.flatten :=
      newest'.congr fun update => (perm.flatten.mem_iff).symm
    refine ⟨newest.lookup_eq clear distinct distinct' newest' key, ?_⟩
    rintro update among rfl
    obtain ⟨row, stored, same⟩ := newest.complete update among
    obtain ⟨member, greatest⟩ := newest.known row stored
    have stamped {update : SettingUpdate} (among : update ∈ first.flatten) :
        ∃ instant : Instant, update.updatedAt = instant.toRfc3339 := by
      obtain ⟨batch, listed, among⟩ := mem_flatten.mp among
      exact (accepted batch listed).stamped among
    obtain ⟨instant, time⟩ := stamped member
    obtain ⟨other, time'⟩ := stamped among
    refine ⟨row, member, (lookup_eq_some_iff distinct).mpr ⟨stored, same⟩, instant, other,
      time, time', ?_⟩
    rw [← toRfc3339_lt, ← time, ← time']
    exact greatest update among same.symm
  · refine foldl_rel (R := fun s s' => Distinct s ∧ s.length ≤ MAX_SETTINGS_PER_ACCOUNT →
      Distinct s' ∧ s'.length ≤ MAX_SETTINGS_PER_ACCOUNT) (fun _ kept => kept)
      (fun before after kept => after (before kept)) (fun rows batch _ kept => ?_)
      ⟨nodup_nil, Nat.zero_le _⟩
    unfold servePut
    split
    · rename_i next ok
      obtain ⟨-, small, distinct⟩ := putSettings_ok kept.1 ok
      exact ⟨distinct, small⟩
    · exact kept
  · rw [servePut, refused]

end Accepted

section Sample

/-- An hour of the first day. -/
def sampleInstant (hour : Fin 24) : Instant :=
  ⟨2026, 1, 1, hour, 0, 0, 0, by decide, by decide, ⟨hour.isLt, by decide⟩⟩

local instance sampleClock : Rfc3339 := ⟨fun text => some (sampleInstant (.ofNat 24 text.length))⟩

/-- The theme set at an hour. -/
def sampleTheme (value : String) (hour : Fin 24) : List SettingUpdate :=
  [⟨"theme", value, (sampleInstant hour).toRfc3339⟩]

theorem settings_converge_sample :
    ∃ rows others, [sampleTheme "light" 1, sampleTheme "dark" 2].foldlM putSettings [] = .ok rows ∧
      [sampleTheme "dark" 2, sampleTheme "light" 1].foldlM putSettings [] = .ok others ∧
      lookup SettingUpdate.key rows "theme" = lookup SettingUpdate.key others "theme" := by
  have accepted : ∀ batch ∈ [sampleTheme "light" 1, sampleTheme "dark" 2], Accepted batch := by
    intro batch listed
    simp only [mem_cons, not_mem_nil, or_false] at listed
    rcases listed with rfl | rfl
    · exact ⟨sampleInstant 2, [("theme", ⟨.string "light", "1"⟩)], by decide, by decide +kernel⟩
    · exact ⟨sampleInstant 2, [("theme", ⟨.string "dark", "02"⟩)], by decide, by decide +kernel⟩
  have ran : [sampleTheme "light" 1, sampleTheme "dark" 2].foldlM putSettings [] =
      .ok (sampleTheme "dark" 2) := by decide +kernel
  have ran' : [sampleTheme "dark" 2, sampleTheme "light" 1].foldlM putSettings [] =
      .ok (sampleTheme "dark" 2) := by decide +kernel
  have clear : Unambiguous [sampleTheme "light" 1, sampleTheme "dark" 2].flatten := by
    unfold Unambiguous
    decide +kernel
  exact ⟨_, _, ran, ran',
    (settings_converge.1 _ _ _ _ (.swap _ _ _) accepted clear ran ran' "theme").1⟩

end Sample

end Coppice.LiseurSync
