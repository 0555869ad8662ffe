import ShareOS.Go.Runtime
import ShareOS.Erasure.DataBlocks
import ShareOS.Erasure.ChunkSize
import ShareOS.Erasure.CopyBuffer
import ShareOS.Metadata.Checksum
import ShareOS.Stats.HTTPStats
import ShareOS.Stats.Atomic
import ShareOS.Handlers.Response
import ShareOS.Handlers.ObjectHandlers
import ShareOS.Handlers.BucketHandlers
import ShareOS.Net.SortIPs
import ShareOS.Net.LocalAddr
import ShareOS.Server.Main
