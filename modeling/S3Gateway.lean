import S3Gateway.Lib.Prog
import S3Gateway.Lib.Run
import S3Gateway.Lib.Pool
import S3Gateway.Lib.Cell
import S3Gateway.Lib.Crash
import S3Gateway.Lib.Loop
import S3Gateway.Lib.ByteFile
import S3Gateway.Lib.Slice
import S3Gateway.Lib.Container
import S3Gateway.Lib.Recency
import S3Gateway.Lib.TokenBucket
import S3Gateway.Path
import S3Gateway.PathMapping
import S3Gateway.Encoding
import S3Gateway.S3.Service
import S3Gateway.S3fs.Attrs
import S3Gateway.S3fs.Handle
import S3Gateway.S3fs.HandleProof
import S3Gateway.S3fs.HandleHistory
import S3Gateway.S3fs.World
import S3Gateway.S3fs.Reader
import S3Gateway.S3fs.File
import S3Gateway.S3fs.Filesystem
import S3Gateway.S3fs.Xattr
import S3Gateway.S3fs.Rules
import S3Gateway.S3fs.XattrKeys
import S3Gateway.S3fs.XattrFolding
import S3Gateway.S3fs.Session
import S3Gateway.S3fs.Concurrent
import S3Gateway.S3fs.Updates
import S3Gateway.S3fs.Learning
import S3Gateway.S3fs.Summary
import S3Gateway.S3fs.Resolve
import S3Gateway.S3fs.Directories
import S3Gateway.S3fs.Steps
import S3Gateway.S3fs.Stores
import S3Gateway.S3fs.OpenHandles
import S3Gateway.S3fs.Attributes
import S3Gateway.S3fs.AttributeRaces
import S3Gateway.S3fs.AttributeRuns
import S3Gateway.S3fs.NoClash
import S3Gateway.S3fs.Tree
import S3Gateway.S3fs.Existence
import S3Gateway.S3fs.Listing
import S3Gateway.S3fs.FileCoherence
import S3Gateway.S3fs.FaultCoherence
import S3Gateway.S3fs.StaleEntries
import S3Gateway.S3fs.DirCoherence
import S3Gateway.S3fs.Staleness
import S3Gateway.S3fs.TypeBits
import S3Gateway.S3fs.WriteBuffer
import S3Gateway.S3fs.WriteFaults
import S3Gateway.S3fs.CreateRace
import S3Gateway.S3fs.ReaderProof
import S3Gateway.S3fs.Prefetch
import S3Gateway.S3fs.ReadFaults
import S3Gateway.S3fs.ReadTermination
import S3Gateway.S3fs.DataTransparency
import S3Gateway.S3fs.ReadAfterClose
import S3Gateway.S3fs.Versions
import S3Gateway.Cache.Metadata
import S3Gateway.Cache.MetadataHistory
import S3Gateway.Cache.MetadataRecency
import S3Gateway.Cache.Data
import S3Gateway.Cache.DataProof
import S3Gateway.Cache.DataKeys
import S3Gateway.Cache.Entries
import S3Gateway.Cache.Scan
import S3Gateway.Cache.Eviction
import S3Gateway.Cache.Lifetime
import S3Gateway.Cache.DataSections
import S3Gateway.Cache.Accounting
import S3Gateway.Cache.Sync
import S3Gateway.Cache.Restart
import S3Gateway.Ratelimit.Limiter
import S3Gateway.S3fs.InodeRace
import S3Gateway.S3fs.StatOpen
import S3Gateway.S3fs.ListingCache
import S3Gateway.S3fs.ReadPattern
import S3Gateway.S3fs.HandleLinear
import S3Gateway.Cache.WholeFiles
import S3Gateway.Cache.QuietSize
import S3Gateway.S3fs.Footprint
import S3Gateway.S3fs.RenameSafety
import S3Gateway.S3fs.Convergence
import S3Gateway.S3fs.SequentialReads
import S3Gateway.S3fs.TreeRuns
import S3Gateway.S3fs.Durability
import S3Gateway.S3fs.WriteBack
import S3Gateway.S3fs.WellFormed
import S3Gateway.Config.Load
import S3Gateway.Startup
import S3Gateway.Lib.Replies
import S3Gateway.S3fs.Provenance
