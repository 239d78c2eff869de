import Wap610n.Bridge.FdbFill
import Wap610n.Bridge.LoopBreaking
import Wap610n.Bridge.Relayed
import Wap610n.Burn.Crash
import Wap610n.Burn.Hnap
import Wap610n.Burn.Recover
import Wap610n.Burn.Threads
import Wap610n.Burn.VerifyEnds
import Wap610n.Config.DriverSetAll
import Wap610n.Config.Import
import Wap610n.Discover.Authorization
import Wap610n.Discover.BodyRight
import Wap610n.Discover.Feed
import Wap610n.Discover.HeaderPointers
import Wap610n.Discover.IpOrder
import Wap610n.Env.Bounds
import Wap610n.Env.GetAgrees
import Wap610n.Env.Session
import Wap610n.Gpio.Armed
import Wap610n.Gpio.LedHistory
import Wap610n.Gpio.LedPattern
import Wap610n.Gpio.PressCleared
import Wap610n.Gsw.PollRun
import Wap610n.Gsw.SendersRun
import Wap610n.Image.Mkcsum
import Wap610n.Kernel.BootEnv
import Wap610n.Kernel.FlashCrc
import Wap610n.Kernel.PartitionTable
import Wap610n.Lan.Dhcp
import Wap610n.Lan.NthValue
import Wap610n.Stp.Age
import Wap610n.Stp.Delay
import Wap610n.Stp.Network
import Wap610n.Stp.Stable
import Wap610n.Survey.ApListed
import Wap610n.Switch.LinkDetected
import Wap610n.Switch.TopologyFile
import Wap610n.Web.BridgeScan
import Wap610n.Web.BurnFits
import Wap610n.Web.DumpFirmware
import Wap610n.Web.Encode64
import Wap610n.Web.ExtractEnds
import Wap610n.Web.FormVars
import Wap610n.Web.Guard
import Wap610n.Web.HnapUpgrade
import Wap610n.Web.MemSearch
import Wap610n.Web.PostDispatched
import Wap610n.Web.ReceiveEnds
import Wap610n.Web.Wireless
import Wap610n.Wps.Cleanup
import Wap610n.Wps.Verdict
