import PokerServer.Lib.Checked
import PokerServer.Lib.Clockwise
import PokerServer.Lib.Layers
import PokerServer.Lib.Lockstep
import PokerServer.Lib.Runs
import PokerServer.Lib.Totals
import PokerServer.Domain.Card
import PokerServer.Domain.HandEvaluator
import PokerServer.Domain.Table
import PokerServer.Domain.Seats
import PokerServer.Domain.Settlement
import PokerServer.Domain.Betting
import PokerServer.Domain.Streets
import PokerServer.Domain.Acting
import PokerServer.Domain.Board
import PokerServer.Domain.Dealing
import PokerServer.Domain.Starting
import PokerServer.Domain.Operations
import PokerServer.Domain.Hand
import PokerServer.Domain.Effects
import PokerServer.Domain.Conservation
import PokerServer.Domain.Stakes
import PokerServer.Domain.Showdown
import PokerServer.Domain.History
import PokerServer.Domain.Rollback
import PokerServer.Domain.Visibility
import PokerServer.Domain.BettingState
import PokerServer.Domain.Faultless
import PokerServer.Domain.Reached
import PokerServer.Domain.Holdings
import PokerServer.Domain.Integrity
import PokerServer.Domain.Progress
import PokerServer.Domain.Relabel
import PokerServer.Domain.Secrecy
import PokerServer.Storage.Records
import PokerServer.Storage.InMemoryGameStore
import PokerServer.Application.IdempotencyCache
import PokerServer.Application.RoomManager
import PokerServer.Storage.Calls
import PokerServer.Storage.Escrow
import PokerServer.Storage.Ledger
import PokerServer.Storage.Lifecycle
import PokerServer.Storage.Seats
import PokerServer.Server.HandRecords
import PokerServer.Server.ProtocolService
import PokerServer.Server.Desk
import PokerServer.Server.Refinement
import PokerServer.Server.Timeouts
import PokerServer.Server.ActionLog
import PokerServer.Server.LiveTimers
import PokerServer.Server.Settlements
import PokerServer.Server.StoredActions
import PokerServer.Server.Books
import PokerServer.Server.Reconciled
import PokerServer.Lib.Scanner
import PokerServer.Net.LengthFieldCodec
import PokerServer.Net.Segmentation
import PokerServer.Application.Admission
import PokerServer.Application.Replays
import PokerServer.Application.RoomExecutor
import PokerServer.Application.Rooms
import PokerServer.Application.Serial
import PokerServer.Cluster.LobbyRouter
import PokerServer.Cluster.Ownership
import PokerServer.Cluster.NodeFailureReaper
import PokerServer.Cluster.Refunds
import PokerServer.Storage.InMemoryAccountStore
import PokerServer.Security.AuthService
import PokerServer.Security.Sessions
import PokerServer.Security.SequenceUpdates
import PokerServer.Lib.Rows
import PokerServer.Storage.MySqlGameStore
import PokerServer.Storage.Correspondence
import PokerServer.Storage.AlikeMoney
import PokerServer.Storage.AlikeAbort
import PokerServer.Storage.AlikeBegin
import PokerServer.Storage.AlikeHands
import PokerServer.Storage.SharedContract
import PokerServer.Storage.RealCards
import PokerServer.Domain.Shuffle
import PokerServer.Domain.BestHand
import PokerServer.Domain.PokerRules
import PokerServer.Domain.Ranking
import PokerServer.Domain.Termination
import PokerServer.Application.ActionTimeout
import PokerServer.Domain.Rotation
import PokerServer.Domain.SplitPots
import PokerServer.Domain.RaiseRights
import PokerServer.Server.PokerTcpServer
import PokerServer.Lib.Int64
import PokerServer.Storage.SettlementCheck
import PokerServer.Storage.ConfigChecks
import PokerServer.Cluster.JoinTickets
import PokerServer.Net.DecoderBuffer
import PokerServer.Lib.Text
import PokerServer.Cluster.HiredisNodeRegistry
import PokerServer.Lib.Holders
import PokerServer.Storage.MySqlConnectionPool
import PokerServer.Lib.Rejection
import PokerServer.Domain.RandomSource
import PokerServer.Lib.Expiry
import PokerServer.Cluster.Redis
import PokerServer.Cluster.RedisRuns
import PokerServer.Cluster.RedisServer
import PokerServer.Cluster.RedisRooms
import PokerServer.Cluster.RedisTickets
import PokerServer.Cluster.RedisNodes
import PokerServer.Server.AtRest
import PokerServer.Application.BlockingExecutor
import PokerServer.Client.NetworkClient
import PokerServer.Client.Requests
import PokerServer.Client.Sequencing
import PokerServer.Lib.Typestate
import PokerServer.Server.Connections
import PokerServer.Server.Authentications
import PokerServer.Server.TokenOwners
import PokerServer.Server.Identities
import PokerServer.Server.LobbyRequests
import PokerServer.Server.Startup
