import Coppice.Ingest.Item
import Coppice.Std.Files

/-!
# Staging

Names of staged files, digests of files and folders, and the moves by which files enter and leave
staging. A move that fails leaves the disk as it was.
-/

namespace Coppice.Ingest

open Coppice.Std

/-- The regular files of the disk. -/
abbrev Disk := Files String (List UInt8)

def isHexDigit (c : Char) : Bool :=
  c.isDigit || ('a' ≤ c && c ≤ 'f') || ('A' ≤ c && c ≤ 'F')

/-- SHA-256 in hexadecimal digits. -/
class Digest where
  sha256 : List UInt8 → String
  filled : ∀ bytes, sha256 bytes ≠ ""
  digits : ∀ bytes, (sha256 bytes).toList.all isHexDigit = true

section Names

def hasWindowsDrivePrefix : List Char → Bool
  | letter :: ':' :: _ => letter.isAlpha
  | _ => false

/-- The check shared by file names and library ids: one safe path component. -/
def isSafeSegment (value : String) : Bool :=
  !(value = "" || value = "." || value = ".." ||
    value.toList.any (fun c => c = '/' || c = '\\' || c = '\x00') ||
    hasWindowsDrivePrefix value.toList)

def keptCharacter (c : Char) : Char :=
  if c.isAlphanum || c = '.' || c = '-' || c = '_' then c else '_'

def sanitizeFilename (filename : String) : Option String :=
  if isSafeSegment filename then
    let sanitized := (filename.toList.map keptCharacter).dropWhile (· = '.')
    some (String.ofList ((if sanitized.isEmpty then "file".toList else sanitized).take 200))
  else none

def stagingPath (stagingRoot : Path) (libraryId sha256 filename : String) : Option Path :=
  if !isSafeSegment libraryId || sha256.isEmpty || !sha256.toList.all isHexDigit then none
  else (sanitizeFilename filename).map fun name =>
    stagingRoot ++ [libraryId, sha256 ++ "-" ++ name]

def fileName (path : Path) : Option String := path.getLast?

def pathText (path : Path) : String := "/".intercalate path

end Names

section Hashing

variable [Digest]

def utf8 (text : String) : List UInt8 := text.toUTF8.toList

def isHidden (name : String) : Bool := name.startsWith "." || name = "__MACOSX"

/-- The files of a folder, without hidden ones. -/
def collectFiles (folder : Disk) : Disk := folder.filter fun entry => !entry.1.any isHidden

def hashFile (found : Disk) : Option (String × Nat) :=
  found.contents.map fun bytes => (Digest.sha256 bytes, bytes.length)

/-- The digest of the sorted lines of relative path and file digest. -/
def hashDir (found : Disk) : Option (String × Nat) :=
  if found.isDir then
    let listed := (collectFiles found).mergeSort fun left right =>
      pathText left.1 ≤ pathText right.1
    some (Digest.sha256 (listed.flatMap fun entry =>
      utf8 (pathText entry.1) ++ [0] ++ utf8 (Digest.sha256 entry.2) ++ [10]),
      (listed.map fun entry => entry.2.length).sum)
  else none

/-- What the row of an item records of its file or folder. -/
def hashTree (found : Disk) : Option (String × Nat) :=
  if found.isDir then hashDir found else hashFile found

end Hashing

section Moves

/-- A proper part of the path is a file. -/
def isBlocked (disk : Disk) (path : Path) : Bool :=
  disk.any fun entry => entry.1 <+: path && entry.1 ≠ path

/-- Renaming, to a free path or from a file to a file. -/
def rename (disk : Disk) (source target : Path) : Option Disk :=
  if (disk.tree source).isEmpty || isBlocked disk target ||
    (source <+: target && source ≠ target) then
    none
  else if (disk.tree target).isEmpty ||
    ((disk.tree source).isFile && (disk.tree target).isFile) then
    some (disk.move source target)
  else none

/-- Copying instead, where renaming fails, fails as well. -/
def moveFile (disk : Disk) (source target : Path) : Option Disk := rename disk source target

/-- One file of a folder, copied over whatever file is there. -/
def copyFile (target : Path) (disk : Disk) (entry : Path × List UInt8) : Option Disk :=
  if isBlocked disk (target ++ entry.1) || (disk.tree (target ++ entry.1)).isDir then none
  else some (disk.plant (target ++ entry.1) [([], entry.2)])

/-- The files of a folder copied one by one, as far as it goes. -/
def copyFiles (target : Path) : Disk → Disk → Disk × Bool
  | disk, [] => (disk, true)
  | disk, entry :: rest =>
    match copyFile target disk entry with
    | none => (disk, false)
    | some next => copyFiles target next rest

/-- Renaming, or else copying every file that is not hidden and removing the folder. -/
def moveDir (disk : Disk) (source target : Path) : Disk × Bool :=
  match rename disk source target with
  | some next => (next, true)
  | none =>
    if !(disk.tree source).isDir || isBlocked disk target then (disk, false)
    else
      let copied := copyFiles target disk (collectFiles (disk.tree source))
      if copied.2 then (copied.1.remove source, true) else (copied.1, false)

def removeIfExists (disk : Disk) (path : Path) : Option Disk :=
  if (disk.tree path).isDir then none else some (disk.remove path)

def removeStaged (disk : Disk) (path : Path) : Disk := disk.remove path

/-- A file into staging; where a folder stands at the target, the file is dropped. -/
def moveIntoStaging (disk : Disk) (source target : Path) : Option Disk :=
  match rename disk source target with
  | some next => some next
  | none =>
    if !(disk.tree target).isEmpty && (disk.tree source).isFile then some (disk.remove source)
    else none

/-- A folder into staging; where anything stands at the target, the folder is dropped. -/
def moveDirIntoStaging (disk : Disk) (source target : Path) : Option Disk :=
  if !(disk.tree target).isEmpty then
    if (disk.tree source).isDir then some (disk.remove source) else none
  else rename disk source target

end Moves

variable {disk next : Disk} {source target path : Path}

section Renaming

theorem rename_eq (renamed : rename disk source target = some next) :
    next = disk.move source target := by
  unfold rename at renamed
  split at renamed
  · cases renamed
  · split at renamed <;> cases renamed
    rfl

theorem rename_occupied (renamed : rename disk source target = some next) :
    disk.tree source ≠ [] := by
  intro empty
  simp [rename, empty] at renamed

theorem isBlocked_eq_false_iff : isBlocked disk target = false ↔ disk.Unblocked target := by
  constructor
  · intro free entry listed above
    have aside := List.any_eq_false.1 free entry listed
    simpa [above] using aside
  intro free
  refine List.any_eq_false.2 fun entry listed blocked => ?_
  simp only [Bool.and_eq_true, decide_eq_true_eq, ne_eq] at blocked
  exact blocked.2 (free entry listed blocked.1)

/-- Renaming to a free path that nothing blocks succeeds. -/
theorem rename_of_free (occupied : disk.tree source ≠ []) (free : disk.tree target = [])
    (unblocked : disk.Unblocked target) (apart : Apart source target) :
    rename disk source target = some (disk.move source target) := by
  unfold rename
  rw [if_neg, if_pos]
  · rw [free]
    rfl
  · simp [occupied, isBlocked_eq_false_iff.2 unblocked, apart.1]

end Renaming

section Confinement

open Files (Confined)

variable {roots : Set Path} (here : Within roots source) (there : Within roots target)

include here in
theorem confined_removeIfExists (removed : removeIfExists disk source = some next) :
    Confined roots disk next := by
  unfold removeIfExists at removed
  split at removed <;> cases removed
  exact Files.confined_remove here

include there in
theorem confined_copyFiles (listing : Disk) :
    Confined roots disk (copyFiles target disk listing).1 := by
  induction listing generalizing disk with
  | nil => exact .refl disk
  | cons entry rest ih =>
    unfold copyFiles
    split
    · exact .refl disk
    rename_i copied
    refine Confined.trans ?_ ih
    unfold copyFile at copied
    split at copied
    · cases copied
    rename_i open_
    cases copied
    simp only [Bool.or_eq_true, not_or, Bool.not_eq_true] at open_
    exact Files.confined_plant (there.below _) (Files.wellFormed_file _)
      (isBlocked_eq_false_iff.1 open_.1)

include here there

/-- A renaming changes its source and its target. -/
theorem confined_rename (renamed : rename disk source target = some next) :
    Confined roots disk next := by
  have moved := rename_eq renamed
  unfold rename at renamed
  split at renamed
  · cases renamed
  rename_i open_
  simp only [Bool.or_eq_true, not_or, Bool.not_eq_true] at open_
  exact moved ▸ Files.confined_move here there (isBlocked_eq_false_iff.1 open_.1.2)

theorem confined_moveIntoStaging (moved : moveIntoStaging disk source target = some next) :
    Confined roots disk next := by
  unfold moveIntoStaging at moved
  split at moved
  · rename_i renamed
    cases moved
    exact confined_rename here there renamed
  · split at moved <;> cases moved
    exact Files.confined_remove here

theorem confined_moveDirIntoStaging (moved : moveDirIntoStaging disk source target = some next) :
    Confined roots disk next := by
  unfold moveDirIntoStaging at moved
  split at moved
  · split at moved <;> cases moved
    exact Files.confined_remove here
  · exact confined_rename here there moved

theorem confined_moveDir : Confined roots disk (moveDir disk source target).1 := by
  unfold moveDir
  split
  · rename_i renamed
    exact confined_rename here there renamed
  split
  · exact .refl disk
  dsimp only
  split
  · exact (confined_copyFiles there _).trans (Files.confined_remove here)
  · exact confined_copyFiles there _

end Confinement

end Coppice.Ingest
