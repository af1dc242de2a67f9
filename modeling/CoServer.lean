import CoServer.BinaryFraming
import CoServer.BinaryMessage
import CoServer.BinaryReuse
import CoServer.BinaryRoundTrip
import CoServer.BinarySending
import CoServer.BinaryStream
import CoServer.BufferQueue
import CoServer.Connection
import CoServer.Drain
import CoServer.Error
import CoServer.FailStop
import CoServer.Foundation.Decimal
import CoServer.Foundation.Fifo
import CoServer.Foundation.Format
import CoServer.Foundation.Interleaving
import CoServer.Foundation.LittleEndian
import CoServer.Foundation.Loop
import CoServer.Foundation.PathChoice
import CoServer.Foundation.PathPattern
import CoServer.Foundation.Pieces
import CoServer.Foundation.Scanner
import CoServer.Foundation.Splice
import CoServer.Foundation.Traced
import CoServer.Foundation.Transition
import CoServer.Http.BlankLine
import CoServer.Http.ChunkedBody
import CoServer.Http.ChunkedDecoder
import CoServer.Http.ChunkedRanges
import CoServer.Http.DeclaredLength
import CoServer.Http.Field
import CoServer.Http.HeadAccesses
import CoServer.Http.HeadAccumulation
import CoServer.Http.HeadLength
import CoServer.Http.HeadOverrun
import CoServer.Http.HeadReading
import CoServer.Http.HeadScan
import CoServer.Http.HeadTaken
import CoServer.Http.HeadViews
import CoServer.Http.HeaderIsolation
import CoServer.Http.LengthFraming
import CoServer.Http.NameCase
import CoServer.Http.PicoHttp
import CoServer.Http.Request
import CoServer.Http.RequestHead
import CoServer.Http.RequestProgress
import CoServer.Http.RequestReading
import CoServer.Http.RequestRouting
import CoServer.Http.Response
import CoServer.Http.ResponseDraining
import CoServer.Http.ResponseSerialization
import CoServer.Http.RoutePriority
import CoServer.Http.Router
import CoServer.Http.RouterMatching
import CoServer.Http.SentRequest
import CoServer.Http.SizedBody
import CoServer.Http.StreamFidelity
import CoServer.Http.TargetSplitting
import CoServer.Http.TerminatorScan
import CoServer.Http.Text
import CoServer.Http.TokenPositions
import CoServer.MessageProgress
import CoServer.Msgpack
import CoServer.Msgpack.Kept
import CoServer.Msgpack.Packer
import CoServer.Msgpack.Reader
import CoServer.Msgpack.RoundTrip
import CoServer.Msgpack.Scalars
import CoServer.Msgpack.Schema
import CoServer.Msgpack.TimePoint
import CoServer.Msgpack.Transport
import CoServer.Msgpack.Truncation
import CoServer.Msgpack.Unpacker
import CoServer.Msgpack.Untrusted
import CoServer.Outgoing
import CoServer.ReadClient
import CoServer.ReadConservation
import CoServer.ReadFeeding
import CoServer.ReadMoves
import CoServer.ReadProgress
import CoServer.Server
import CoServer.Session
import CoServer.SessionFidelity
import CoServer.SessionRefinement
import CoServer.StaticBuffer
import CoServer.System
import CoServer.SystemMoves
import CoServer.TestServer
import CoServer.WireExactness
import CoServer.WriteClient
import CoServer.WriteExclusion
import CoServer.WriteMoves
