import ForgottenServer.Otb.Loader
import ForgottenServer.Otb.Escape
import ForgottenServer.Otb.RoundTrip
import ForgottenServer.Otb.Soundness
import ForgottenServer.Lib.LittleEndian
import ForgottenServer.Lib.ByteMemory
import ForgottenServer.Item.ItemType
import ForgottenServer.Network.Latin1
import ForgottenServer.Network.Message
import ForgottenServer.Network.Calls
import ForgottenServer.Network.Compose
import ForgottenServer.Network.ReadBack
import ForgottenServer.Network.WholeCalls
import ForgottenServer.Lib.ByteBlocks
import ForgottenServer.Network.Xtea
import ForgottenServer.Network.Framing
import ForgottenServer.Network.PacketRoundTrip
import ForgottenServer.Network.ReadBounds
import ForgottenServer.Kv.Copies
import ForgottenServer.Kv.Runs
import ForgottenServer.Lib.Runs
import ForgottenServer.Save.Manager
import ForgottenServer.Save.Lines
import ForgottenServer.Save.Recovery
import ForgottenServer.Condition.Condition
import ForgottenServer.Condition.RoundTrip
import ForgottenServer.Item.Attributes
import ForgottenServer.Item.Serialize
import ForgottenServer.Item.AttrRoundTrip
import ForgottenServer.Lib.Climb
import ForgottenServer.Container.Heap
import ForgottenServer.Container.Move
import ForgottenServer.Container.Forest
import ForgottenServer.Container.Destination
import ForgottenServer.Container.Transfer
import ForgottenServer.Container.Conserve
import ForgottenServer.Container.MoveItem
import ForgottenServer.Lib.WriteBehind
import ForgottenServer.Player.Dirty
import ForgottenServer.Player.Tracking
import ForgottenServer.Item.Object
import ForgottenServer.Lib.BreadthFirst
import ForgottenServer.Player.Saving
import ForgottenServer.Login.Items
import ForgottenServer.Login.Inventory
import ForgottenServer.Login.Inbox
import ForgottenServer.Login.Rewards
import ForgottenServer.Lib.DepthFirst
import ForgottenServer.Lib.QuadTree
import ForgottenServer.MapCache.Store
import ForgottenServer.MapCache.Persistent
import ForgottenServer.MapCache.RoundTrip
import ForgottenServer.Save.Credits
import ForgottenServer.Save.Tracked
import ForgottenServer.Save.Callbacks
import ForgottenServer.Save.Drained
import ForgottenServer.Kv.Calls
import ForgottenServer.Reactor.Accounting
import ForgottenServer.Reactor.Order
import ForgottenServer.Reactor.Cancel
import ForgottenServer.Trade.Consistency
import ForgottenServer.World.Store
import ForgottenServer.Lib.Links
import ForgottenServer.World.Links
import ForgottenServer.World.Contents
import ForgottenServer.World.Spectators
import ForgottenServer.World.SpectatorCache
import ForgottenServer.Trade.Belongings
import ForgottenServer.Trade.Transfer
import ForgottenServer.Trade.Atomicity
import ForgottenServer.Kv.Threads
import ForgottenServer.Social.Chat
import ForgottenServer.Social.Party
import ForgottenServer.House.Ownership
import ForgottenServer.Bestiary.Charms
import ForgottenServer.Bestiary.CrashSafety
import ForgottenServer.Bazaar.Auctions
import ForgottenServer.Bazaar.Settlement
import ForgottenServer.Decay.Decay
import ForgottenServer.Decay.Buckets
import ForgottenServer.Decay.Batches
import ForgottenServer.Tile.Tile
import ForgottenServer.Tile.Layout
import ForgottenServer.Lib.Subtotals
import ForgottenServer.Container.Weight
import ForgottenServer.Container.WeightSteps
import ForgottenServer.Container.WeightClone
import ForgottenServer.Container.WeightRuns
import ForgottenServer.Item.Uid
import ForgottenServer.Kv.Uuid
import ForgottenServer.Item.Reflect
import ForgottenServer.Item.ItemAttributes
import ForgottenServer.Item.AttributeVector
import ForgottenServer.Item.AttributeRuns
import ForgottenServer.Item.Equals
import ForgottenServer.Money.AddMoney
import ForgottenServer.Kv.Keys
import ForgottenServer.Container.Exchange
import ForgottenServer.Container.Holdings
import ForgottenServer.Container.Add
import ForgottenServer.Container.AddItem
import ForgottenServer.Lib.TreeSearch
import ForgottenServer.Money.RemoveMoney
import ForgottenServer.Money.Change
import ForgottenServer.Combat.MatrixArea
import ForgottenServer.Combat.Symmetry
import ForgottenServer.Combat.CreateArea
import ForgottenServer.Game.WildcardTree
import ForgottenServer.Market.Escrow
import ForgottenServer.Kv.ValueWrapper
import ForgottenServer.Kv.ValueCodec
import ForgottenServer.Lib.HashConsing
import ForgottenServer.MapCache.Intern
import ForgottenServer.MapCache.InternRuns
import ForgottenServer.Lib.Transaction
import ForgottenServer.Save.Replay
import ForgottenServer.Save.ReplayExact
import ForgottenServer.Lib.ReaderStages
import ForgottenServer.MapCache.FailedLoad
import ForgottenServer.Lib.DigitalLine
import ForgottenServer.World.SightLine
import ForgottenServer.World.Sight
import ForgottenServer.House.Rent
import ForgottenServer.Market.Delivery
import ForgottenServer.Network.Connections
import ForgottenServer.Network.RateLimiter
import ForgottenServer.Lib.IndexedHeap
import ForgottenServer.Lib.ProbingTable
import ForgottenServer.Path.Nodes
import ForgottenServer.Path.Workspace
import ForgottenServer.Lib.Loop
import ForgottenServer.Path.Search
import ForgottenServer.Path.Explored
import ForgottenServer.Path.Matching
import ForgottenServer.Path.Route
import ForgottenServer.Path.Cardinal
import ForgottenServer.Condition.Cursors
import ForgottenServer.Condition.DamageSchedule
import ForgottenServer.Condition.Residue
import ForgottenServer.World.SpectatorVec
import ForgottenServer.Lib.Levels
import ForgottenServer.Player.ManaSpent
import ForgottenServer.Player.Skills
import ForgottenServer.Lib.FixedDigits
import ForgottenServer.Login.Token
import ForgottenServer.Player.Experience
import ForgottenServer.Player.Name
import ForgottenServer.World.Zones
import ForgottenServer.Lib.WeakLinks
import ForgottenServer.World.Summons
import ForgottenServer.Item.Imbuements
import ForgottenServer.Login.DepotSave
import ForgottenServer.Database.Insert
import ForgottenServer.Lib.LeftmostSplit
import ForgottenServer.Tools.Strings
import ForgottenServer.Lib.GapCoding
import ForgottenServer.View.MapDescription
import ForgottenServer.View.Window
import ForgottenServer.View.InStep
import ForgottenServer.View.Coherence
import ForgottenServer.View.TileDescription
import ForgottenServer.View.KnownCreatures
import ForgottenServer.Lib.Page
import ForgottenServer.View.OpenContainers
import ForgottenServer.Lib.Wakeups
import ForgottenServer.Threads.ThreadPool
import ForgottenServer.Network.Autosend
import ForgottenServer.Lib.Sweep
import ForgottenServer.Game.Think
import ForgottenServer.Game.Spawn
import ForgottenServer.Tile.Teleport
