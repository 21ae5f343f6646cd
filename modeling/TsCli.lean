import TsCli.Lib.Exec
import TsCli.Lib.OrderedMap
import TsCli.Lib.ForestEdit
import TsCli.Lib.TreeDrawing
import TsCli.Lib.Registry
import TsCli.State.ChannelReadable
import TsCli.Reliability.ReliableCommandQueue
import TsCli.Session.Authentication
import TsCli.Session.SendAtomicity
import TsCli.Compression.QuickLzSafety
import TsCli.Packet.GenerationTracking
import TsCli.Packet.CommandFragmenter
import TsCli.Reliability.Delivery
import TsCli.Command.Codec
import TsCli.Session.NonceReuse
import TsCli.Config.RoundTrip
import TsCli.Audio.MutedAudio
import TsCli.Audio.TalkBursts
import TsCli.Handshake.Handshake
import TsCli.Session.BatchedRows
import TsCli.Session.OwnChannel
import TsCli.Session.Presence
import TsCli.Session.UndecodableInput
import TsCli.Client.TalkerSettings
import TsCli.Client.TreeListing
import TsCli.State.TreeAcceptance
import TsCli.Session.Retransmission
import TsCli.Session.StatisticsSnapshot
import TsCli.Audio.VoiceJitterBuffer
import TsCli.Audio.JitterBursts
import TsCli.Compression.QuickLzReferences
import TsCli.Reliability.KeptPackets
import TsCli.Audio.RingQueue
import TsCli.Session.SubscribedChannels
import TsCli.Crypto.PuzzleSolver
import TsCli.Reliability.WindowInvariant
import TsCli.Session.CommandStreams
import TsCli.Session.Acknowledgement
import TsCli.State.LateEnter
import TsCli.Command.AcceptedRows
import TsCli.Audio.CaptureFraming
import TsCli.Audio.PlaybackRendering
import TsCli.Lib.BigEndian
import TsCli.Crypto.DerReader
import TsCli.Crypto.PublicKey
import TsCli.Crypto.HashCash
import TsCli.Config.IdentityStore
import TsCli.Lib.LastSeen
import TsCli.Client.TalkerActivity
import TsCli.Config.UserSettings
import TsCli.Lib.Prober
import TsCli.Session.Emissions
import TsCli.Session.Transmissions
import TsCli.Session.Keepalive
import TsCli.Lib.Cursor
import TsCli.Handshake.License
import TsCli.Handshake.LicenseGrammar
import TsCli.Session.CommandDelivery
import TsCli.Audio.PlaybackRefill
import TsCli.Handshake.HandshakeRun
import TsCli.Client.EventDelivery
import TsCli.Client.LiveState
import TsCli.Client.CommandLine
import TsCli.Message.ClientCommands
import TsCli.Client.Conversation
import TsCli.Client.Presentation
