import Trolly.Exec.DirectTrading
import Trolly.Exec.HttpReply
import Trolly.Exec.HttpRequest
import Trolly.Exec.SpotSession
import Trolly.Exec.SymbolRoutes
import Trolly.Gym.ClippedLoss
import Trolly.Gym.Equilibria
import Trolly.Gym.Layout
import Trolly.Gym.OrderSteps
import Trolly.Gym.RingBuffers
import Trolly.Gym.Rollout
import Trolly.Gym.SelfPlay
import Trolly.Monitor.Copies
import Trolly.Monitor.DepthAcks
import Trolly.Monitor.DepthPipelines
import Trolly.Monitor.DuplicateSources
import Trolly.Monitor.EchoDepth
import Trolly.Monitor.Shutdown
import Trolly.Servers.DepthServe
import Trolly.Servers.Metrics
import Trolly.Spot.AccountRoute
import Trolly.Spot.Journal
import Trolly.Spot.MalformedAmounts
import Trolly.Spot.OpenOrders
import Trolly.Strategy.Envelope
import Trolly.Tui.DeltaChart
import Trolly.Tui.Screen
import Trolly.Tui.Tabs
import Trolly.Usdm.Fanout
import Trolly.Usdm.Interleavings
import Trolly.Usdm.MarginCalls
import Trolly.Usdm.Redelivery
import Trolly.Usdm.Rows
