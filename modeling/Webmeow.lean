import Webmeow.Airport.Assignment
import Webmeow.Airport.Endpoints
import Webmeow.Airport.Gates
import Webmeow.Airport.Proofs.AnnounceProofs
import Webmeow.Airport.Proofs.ArrivalProofs
import Webmeow.Airport.Proofs.AssignmentProofs
import Webmeow.Airport.Proofs.BalanceProofs
import Webmeow.Airport.Proofs.ConservationProofs
import Webmeow.Airport.Proofs.DrainProofs
import Webmeow.Airport.Proofs.OrderProofs
import Webmeow.Airport.Proofs.OvertakingProofs
import Webmeow.Airport.Proofs.PositionProofs
import Webmeow.Airport.Proofs.ResponseProofs
import Webmeow.Airport.Proofs.RestartProofs
import Webmeow.Airport.Proofs.ResumeProofs
import Webmeow.Airport.Proofs.SettledProofs
import Webmeow.Airport.Proofs.StepProofs
import Webmeow.Airport.Proofs.ViewProofs
import Webmeow.Airport.System
import Webmeow.Beach.Activity
import Webmeow.Beach.Controller
import Webmeow.Beach.Desk
import Webmeow.Beach.Proofs.BookExactProofs
import Webmeow.Beach.Proofs.CapacityProofs
import Webmeow.Beach.Proofs.CheckedInProofs
import Webmeow.Beach.Proofs.DeskProofs
import Webmeow.Beach.Proofs.SerialProofs
import Webmeow.Beach.Proofs.TransactionsProofs
import Webmeow.Beach.Server
import Webmeow.Beach.Transactions
import Webmeow.Broadcast.EventBus
import Webmeow.Broadcast.Proofs.DeliveryProofs
import Webmeow.Broadcast.Publishers
import Webmeow.Broadcast.Routes
import Webmeow.Frontend.ApiClient
import Webmeow.Frontend.EventsStore
import Webmeow.Frontend.GuestStep
import Webmeow.Frontend.LiveFeed
import Webmeow.Frontend.NormalizeEvent
import Webmeow.Frontend.Proofs.ChannelProofs
import Webmeow.Frontend.Proofs.CoalescingProofs
import Webmeow.Frontend.Proofs.EventsStoreProofs
import Webmeow.Frontend.Proofs.FreshReadsProofs
import Webmeow.Frontend.Proofs.LiveFeedProofs
import Webmeow.Frontend.Proofs.NormalizeProofs
import Webmeow.Frontend.Proofs.ReservationFormProofs
import Webmeow.Frontend.Proofs.TrafficGeneratorProofs
import Webmeow.Frontend.Proofs.TrafficProtocolProofs
import Webmeow.Frontend.Proofs.UseBroadcastProofs
import Webmeow.Frontend.ReservationForm
import Webmeow.Frontend.TrafficGenerator
import Webmeow.Frontend.UseBroadcast
import Webmeow.GameTime.Clock
import Webmeow.GameTime.Proofs.SharedDayProofs
import Webmeow.Gateway.Admin
import Webmeow.Gateway.Cache
import Webmeow.Gateway.Config
import Webmeow.Gateway.Health
import Webmeow.Gateway.Http
import Webmeow.Gateway.Middleware
import Webmeow.Gateway.Pool
import Webmeow.Gateway.Proofs.AdminProofs
import Webmeow.Gateway.Proofs.CacheKeyProofs
import Webmeow.Gateway.Proofs.CacheProofs
import Webmeow.Gateway.Proofs.CaptureProofs
import Webmeow.Gateway.Proofs.ForbiddenProofs
import Webmeow.Gateway.Proofs.ForwardProofs
import Webmeow.Gateway.Proofs.HealthProofs
import Webmeow.Gateway.Proofs.PoolProofs
import Webmeow.Gateway.Proofs.RateLimitProofs
import Webmeow.Gateway.Proofs.ServerProofs
import Webmeow.Gateway.Proofs.StrangerProofs
import Webmeow.Gateway.Proofs.ThrottlingProofs
import Webmeow.Gateway.Proofs.TransparencyProofs
import Webmeow.Gateway.Proofs.WindowProofs
import Webmeow.Gateway.Proxy
import Webmeow.Gateway.RateLimit
import Webmeow.Gateway.Server
import Webmeow.Gateway.Throttling
import Webmeow.Hotel.AirportClient
import Webmeow.Hotel.Lifecycle
import Webmeow.Hotel.Lookup
import Webmeow.Hotel.Proofs.AirportClientProofs
import Webmeow.Hotel.Proofs.CancelledProofs
import Webmeow.Hotel.Proofs.DoubleBookingProofs
import Webmeow.Hotel.Proofs.FirstFitProofs
import Webmeow.Hotel.Proofs.LifecycleProofs
import Webmeow.Hotel.Proofs.LookupProofs
import Webmeow.Hotel.Proofs.OccupancyProofs
import Webmeow.Hotel.Proofs.ReservationProofs
import Webmeow.Hotel.Proofs.SerialProofs
import Webmeow.Hotel.Reservation
import Webmeow.Hotel.Rooms
import Webmeow.Hotel.Server
import Webmeow.Lib.Assembly
import Webmeow.Lib.Counts
import Webmeow.Lib.Draining
import Webmeow.Lib.Erasure
import Webmeow.Lib.EventStream
import Webmeow.Lib.Eviction
import Webmeow.Lib.FixedWindow
import Webmeow.Lib.Forgetting
import Webmeow.Lib.FunctionGraph
import Webmeow.Lib.Groups
import Webmeow.Lib.Interleaving
import Webmeow.Lib.Isolation
import Webmeow.Lib.JsonDumps
import Webmeow.Lib.JsonRoundTrip
import Webmeow.Lib.JsonText
import Webmeow.Lib.Keyed
import Webmeow.Lib.LastWriter
import Webmeow.Lib.LeastLoaded
import Webmeow.Lib.Ledger
import Webmeow.Lib.LongestSuffix
import Webmeow.Lib.LostWrites
import Webmeow.Lib.Masking
import Webmeow.Lib.OrderedRows
import Webmeow.Lib.Placement
import Webmeow.Lib.Recency
import Webmeow.Lib.Records
import Webmeow.Lib.Reordering
import Webmeow.Lib.RoundRobin
import Webmeow.Lib.Runs
import Webmeow.Lib.Separators
import Webmeow.Lib.Simulation
import Webmeow.Lib.SnapshotIsolation
import Webmeow.Lib.Spelling
import Webmeow.Lib.StableQueue
import Webmeow.Lib.Url
import Webmeow.Lib.UrlWriting
import Webmeow.Lib.Utf16
import Webmeow.Lib.WaitFree
import Webmeow.Lib.WebUrl
import Webmeow.Parrot.Admin
import Webmeow.Parrot.Chat
import Webmeow.Parrot.Dialogue
import Webmeow.Parrot.History
import Webmeow.Parrot.Profanity
import Webmeow.Parrot.Proofs.AgreementProofs
import Webmeow.Parrot.Proofs.CensoredProofs
import Webmeow.Parrot.Proofs.CleanupProofs
import Webmeow.Parrot.Proofs.HistoryProofs
import Webmeow.Parrot.Proofs.IsolationProofs
import Webmeow.Parrot.Proofs.MoveProofs
import Webmeow.Parrot.Proofs.NeighbourProofs
import Webmeow.Parrot.Proofs.ProfanityProofs
import Webmeow.Parrot.Proofs.ReassemblyProofs
import Webmeow.Parrot.Proofs.ReplayProofs
import Webmeow.Parrot.Proofs.RunToolProofs
import Webmeow.Parrot.Proofs.SseTextProofs
import Webmeow.Parrot.Proofs.StreamProofs
import Webmeow.Parrot.Proofs.SummaryProofs
import Webmeow.Parrot.Proofs.TranscriptProofs
import Webmeow.Parrot.Proofs.TrimProofs
import Webmeow.Parrot.Proofs.VisibleProofs
import Webmeow.Parrot.RunTool
import Webmeow.Parrot.SseText
import Webmeow.Parrot.Tools
import Webmeow.Tokens.Proofs.CreditProofs
import Webmeow.Tokens.Proofs.SessionProofs
import Webmeow.Tokens.Proofs.SpendProofs
import Webmeow.Tokens.Proofs.WalletObjectsProofs
import Webmeow.Tokens.Session
import Webmeow.Tokens.TokenRules
import Webmeow.Tokens.TokenStore
import Webmeow.Tokens.WalletObjects
