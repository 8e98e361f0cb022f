import GifTools.Core.Runs
import GifTools.Core.Bits
import GifTools.Core.Lzw
import GifTools.Core.LzwDict
import GifTools.Core.LzwSync
import GifTools.Core.Search
import GifTools.Core.KdTree
import GifTools.Core.Select
import GifTools.Core.Secrets
import GifTools.Core.Radix
import GifTools.Storage.Object
import GifTools.Storage.Basic
import GifTools.Storage.Slots
import GifTools.Storage.Free
import GifTools.Storage.Make
import GifTools.Storage.Reach
import GifTools.Storage.Lookup
import GifTools.Storage.Identity
import GifTools.Storage.Ownership
import GifTools.Storage.Accounting
import GifTools.Storage.Close
import GifTools.Storage.Closed
import GifTools.Storage.Sound
import GifTools.FFmpeg.InputStream
import GifTools.Gif.BitStatus
import GifTools.Gif.Palette
import GifTools.Gif.LzwImage
import GifTools.Gif.SubBlocks
import GifTools.Gif.Builder
import GifTools.Gif.Format
import GifTools.Gif.Frame
import GifTools.Gif.Closing
import GifTools.Gif.File
import GifTools.Gif.Replay
import GifTools.Gif.Extents
import GifTools.Gif.Median
import GifTools.Gif.Split
import GifTools.Gif.Touched
import GifTools.Gif.Assigned
import GifTools.Gif.Nearest
import GifTools.Gif.Searched
import GifTools.Gif.Determined
import GifTools.Gif.Accesses
import GifTools.Gif.Arithmetic
import GifTools.FFmpeg.Seek
import GifTools.FFmpeg.Prepared
import GifTools.FFmpeg.Open
import GifTools.FFmpeg.Decode
import GifTools.FFmpeg.Sampler
import GifTools.FFmpeg.Rounds
import GifTools.FFmpeg.Protocol
import GifTools.FFmpeg.Prepare
import GifTools.FFmpeg.Decoded
import GifTools.Core.Throws
import GifTools.Web.Vm
import GifTools.Web.Methods
import GifTools.Web.Effects
import GifTools.Web.Deinit
import GifTools.Web.Failure
import GifTools.Web.VideoStream
import GifTools.Web.Linked
import GifTools.Base64.Basic
import GifTools.Base64.Text
import GifTools.Base64.Decode
import GifTools.Base64.RoundTrip
import GifTools.Image.Storage
import GifTools.Bindings.Memory
import GifTools.Bindings.Objects
import GifTools.Bindings.Exports
import GifTools.Bindings.Guards
import GifTools.Bindings.Holding
import GifTools.Bindings.Keep
import GifTools.Bindings.Handles
import GifTools.Bindings.Sized
import GifTools.FFmpeg.Tolerance
import GifTools.FFmpeg.Pictures
import GifTools.FFmpeg.BestFrame
import GifTools.FFmpeg.AllFrames
import GifTools.FFmpeg.SampledFrames
import GifTools.FFmpeg.Expired
import GifTools.FFmpeg.Coverage
import GifTools.Core.Cells
import GifTools.Core.Canonical
import GifTools.Core.Lz77
import GifTools.Core.Deflate
import GifTools.Core.Blocks
import GifTools.Core.Checksum
import GifTools.Core.Predict
import GifTools.Core.Chunks
import GifTools.Png.Huffman
import GifTools.Png.Inflate
import GifTools.Png.Stream
import GifTools.Png.Inflated
import GifTools.Png.Codes
import GifTools.Png.Blocks
import GifTools.Png.Zlib
import GifTools.Png.Compressed
import GifTools.Png.Recovered
import GifTools.Png.Write
import GifTools.Png.Image
import GifTools.Png.Filtered
import GifTools.Png.Interlaced
import GifTools.Png.Load
import GifTools.Png.Sized
import GifTools.Png.Written
import GifTools.Png.Reloaded
import GifTools.Bindings.PngFiles
