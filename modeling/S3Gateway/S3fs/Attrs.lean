import S3Gateway.S3.Service

/-!
# POSIX attributes (`internal/s3fs/attrs.go`, `internal/s3fs/symlink.go`)

Mode, owner and symlink target of an object live in its S3 user metadata.
`parseMode` reads the mode back, falling back to the defaults; `posixMetadata`
writes the attributes a new object gets.
-/

namespace S3Gateway

open Lib

/-- `os.FileMode`. -/
abbrev FileMode := UInt32

/-- `os.ModeDir`. -/
def modeDir : FileMode := 0x80000000

/-- `FileMode.Perm`. -/
def FileMode.perm (m : FileMode) : FileMode := m &&& 0o777

/-- `FileMode.IsDir`. -/
def FileMode.isDir (m : FileMode) : Bool := m &&& modeDir != 0

def defaultUID : Int := 1000
def defaultGID : Int := 1000
def defaultFileMode : FileMode := 0o644
def defaultDirMode : FileMode := 0o755

def metaKeyUID : GoString := gs "Uid"
def metaKeyGID : GoString := gs "Gid"
def metaKeyMode : GoString := gs "Mode"
def metaKeySymlinkTarget : GoString := gs "Symlink-Target"

/-! ## Package `strconv` -/

/-- One digit of `strconv.ParseUint(s, 8, _)`. -/
def octalDigit (acc : Nat) (b : UInt8) : Option Nat :=
  if 48 ≤ b ∧ b ≤ 55 then some (acc * 8 + (b.toNat - 48)) else none

/-- `strconv.ParseUint(s, 8, 32)`: `none` for a syntax or range error. -/
def parseUintOctal32 (s : GoString) : Option UInt32 :=
  if s = [] then none
  else (s.foldlM octalDigit 0).bind fun n => if n < 2 ^ 32 then some (UInt32.ofNat n) else none

/-- `strconv.FormatUint(n, 8)`. -/
def formatOctal (n : FileMode) : GoString := (Nat.toDigits 8 n.toNat).map Char.toUInt8

/-- `strconv.Itoa`. -/
def itoa (n : Int) : GoString :=
  let digits := (Nat.toDigits 10 n.natAbs).map Char.toUInt8
  if n < 0 then gs "-" ++ digits else digits

/-! ## Modes and metadata -/

/-- `parseMode`. -/
def parseMode (userMeta : Metadata) (isDir : Bool) : FileMode :=
  match (userMeta.lookup metaKeyMode).bind parseUintOctal32 with
  | some m => if isDir then m ||| modeDir else m
  | none => if isDir then modeDir ||| defaultDirMode else defaultFileMode

/-- `posixMetadata`. -/
def posixMetadata (uid gid : Int) (mode : FileMode) : Metadata :=
  ((AList.insert metaKeyUID (itoa uid) ∅).insert metaKeyGID (itoa gid)).insert metaKeyMode
    (formatOctal mode.perm)

/-- The metadata of every object the gateway creates or uploads as a file. -/
def defaultMetadata : Metadata := posixMetadata defaultUID defaultGID defaultFileMode

/-- `symlinkTarget`: `""` when the object is no symlink. -/
def symlinkTarget (userMeta : Metadata) : GoString := (userMeta.lookup metaKeySymlinkTarget).getD []

/-- The mode written for a new file is the mode read back. -/
theorem parseMode_defaultMetadata : parseMode defaultMetadata false = defaultFileMode := by
  decide

theorem isDir_or_modeDir (m : FileMode) : FileMode.isDir (m ||| modeDir) = true := by
  have hand : (m ||| modeDir) &&& modeDir = modeDir := by
    apply UInt32.toBitVec_inj.mp
    ext i hi
    simp only [UInt32.toBitVec_and, UInt32.toBitVec_or, BitVec.getElem_and, BitVec.getElem_or]
    cases modeDir.toBitVec[i] <;> simp
  rw [FileMode.isDir, hand]
  decide

/-- The mode of a directory has the directory bit, whatever the metadata say. -/
theorem isDir_parseMode (userMeta : Metadata) : (parseMode userMeta true).isDir = true := by
  unfold parseMode
  split
  · exact isDir_or_modeDir _
  · decide

example : parseMode (AList.insert metaKeyMode (gs "0777") ∅) false = 0o777 ∧
    parseMode (AList.insert metaKeyMode (gs "rwx") ∅) true = modeDir ||| 0o755 := by
  decide

/-! ## File information -/

/-- `fileInfo`. -/
structure FileInfo where
  name : GoString
  size : Int
  mode : FileMode
  modTime : Time
  isDir : Bool
  inode : UInt64
  numLinks : Nat
  etag : GoString

/-- The link count every constructor of `fileInfo` assigns. -/
def numLinksOf (isDir : Bool) : Nat := if isDir then 2 else 1

/-- `newFileInfoFromS3`. -/
def newFileInfoFromS3 (name : GoString) (size : Int) (lastModified : Time) (isDir : Bool)
    (inode : UInt64) (userMeta : Metadata) : FileInfo :=
  { name, size, mode := parseMode userMeta isDir, modTime := lastModified, isDir, inode
    numLinks := numLinksOf isDir, etag := [] }

/-- `newFileInfoFromS3WithETag`. -/
def newFileInfoFromS3WithETag (name : GoString) (size : Int) (lastModified : Time) (isDir : Bool)
    (inode : UInt64) (userMeta : Metadata) (etag : GoString) : FileInfo :=
  { newFileInfoFromS3 name size lastModified isDir inode userMeta with etag }

/-- `newDirInfo`; `now` is the `time.Now()` it stamps. -/
def newDirInfo (name : GoString) (inode : UInt64) (now : Time) : FileInfo :=
  { name, size := 0, mode := modeDir ||| defaultDirMode, modTime := now, isDir := true, inode
    numLinks := 2, etag := [] }

end S3Gateway
