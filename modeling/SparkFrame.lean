import SparkFrame.Cards.Declare
import SparkFrame.Cards.Complete
import SparkFrame.Net.ReadBounds
import SparkFrame.Net.SendQueue
import SparkFrame.Net.CloseClient
import SparkFrame.Net.Callbacks
import SparkFrame.Server.Dispatch
import SparkFrame.Net.Writes
import SparkFrame.Net.Framing
import SparkFrame.Net.Delivery
import SparkFrame.Net.MqSession
import SparkFrame.Lib.StdMap
import SparkFrame.Net.ServerSessionManager
import SparkFrame.Net.Lifecycle
import SparkFrame.Net.Reconnect
import SparkFrame.Tools.Json
import SparkFrame.Resource.Redis
import SparkFrame.Server.LoginModule
import SparkFrame.Server.Accounts
import SparkFrame.Tools.AesBt
import SparkFrame.Server.TokenLogin
import SparkFrame.Cards.Post
import SparkFrame.Cards.Layouts
import SparkFrame.Cards.LifeOrder
import SparkFrame.Cards.PostBest
import SparkFrame.Net.RecvBounds
import SparkFrame.Cards.PureRule
import SparkFrame.Cards.SetRule
import SparkFrame.Cards.StraightSearch
import SparkFrame.Cards.StraightRule
import SparkFrame.Lib.Numerals
import SparkFrame.Tools.SystemTool
import SparkFrame.Server.Registration
import SparkFrame.Server.GameRoom
import SparkFrame.Net.MqInfo
import SparkFrame.Net.MqClient
import SparkFrame.Net.MqReconnect
import SparkFrame.Net.Bindings
import SparkFrame.Cards.Cache
import SparkFrame.Cards.Reorder
import SparkFrame.Tools.Base64Sets
import SparkFrame.Lib.Buffer
import SparkFrame.Tools.TokenBuffers
import SparkFrame.Cards.CardDealer
import SparkFrame.Lib.CircularBuffer
import SparkFrame.Lib.Fifo
import SparkFrame.Net.MessageQueue
import SparkFrame.Cards.Asserts
import SparkFrame.Tools.BaseTool
import SparkFrame.Lib.Reindex
import SparkFrame.Tools.SimpLeSift
import SparkFrame.Cards.AllChoices
import SparkFrame.Cards.Relation
import SparkFrame.Net.QueueLimit
import SparkFrame.Lib.BinPoly
import SparkFrame.Lib.KeyAlternating
import SparkFrame.Tools.Rijndael
import SparkFrame.Tools.AesCore
import SparkFrame.Tools.AesCipher
import SparkFrame.Tools.AesSchedule
import SparkFrame.Lib.BlockStream
import SparkFrame.Tools.MD5
import SparkFrame.Tools.AesEcb
import SparkFrame.Net.Requests
import SparkFrame.Server.LobbyModule
import SparkFrame.Server.Relay
