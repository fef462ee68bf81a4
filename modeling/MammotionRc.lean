import MammotionRc.Soundness.AvailabilityTruth
import MammotionRc.Soundness.CodecInOrder
import MammotionRc.Soundness.ConnectUsable
import MammotionRc.Soundness.LiveRegistry
import MammotionRc.Soundness.NewestFrame
import MammotionRc.Soundness.OneSocket
import MammotionRc.Soundness.PipeLossless
import MammotionRc.Soundness.StickRelease
import MammotionRc.Soundness.TeardownFinal
import MammotionRc.Soundness.DropNoticed
import MammotionRc.Soundness.DownlinkFramed
import MammotionRc.Soundness.BleOwnership
import MammotionRc.Soundness.SsidJoined
import MammotionRc.Soundness.WatchdogFed
import MammotionRc.Soundness.RetryHealthy
import MammotionRc.Soundness.DrivingHold
import MammotionRc.Soundness.StopDominates
import MammotionRc.Soundness.BurstDetected
import MammotionRc.Soundness.SoftApTracked
import MammotionRc.Soundness.RosterServed
import MammotionRc.Soundness.JoystickNeverStuck
import MammotionRc.Soundness.DiscoveryRoundTrip
import MammotionRc.Soundness.PairingPartition
import MammotionRc.Soundness.AuthGate
import MammotionRc.Soundness.RosterRoundTrip
import MammotionRc.Soundness.SecretsShared
import MammotionRc.Soundness.SaveAtomic
import MammotionRc.Soundness.RefillLossless
import MammotionRc.Soundness.ScanPicksMower
import MammotionRc.Soundness.IdleWatchdog
import MammotionRc.Soundness.SettingsInLimits
import MammotionRc.Soundness.BladesTwoTaps
import MammotionRc.Soundness.RightMower
import MammotionRc.Soundness.FailsafeLatch
import MammotionRc.Soundness.CameraEnded
import MammotionRc.Soundness.GateCounts
import MammotionRc.Soundness.StickEndsStopped
import MammotionRc.Soundness.PollAlive
import MammotionRc.Soundness.TelemetryCurrent
import MammotionRc.Soundness.ControlsReleased
import MammotionRc.Soundness.FormFlashed
import MammotionRc.Soundness.WholeCharacters
import MammotionRc.Soundness.WifiListInverted
import MammotionRc.Soundness.WifiStatusExact
import MammotionRc.Soundness.TraceSendable
import MammotionRc.Soundness.CrcAgreement
import MammotionRc.Soundness.ClientRefines
import MammotionRc.Soundness.ServerRefines
import MammotionRc.Soundness.PacketPools
import MammotionRc.Soundness.FramesHandedOver
import MammotionRc.Soundness.MmbufLists
import MammotionRc.Soundness.CloudListed
import MammotionRc.Soundness.DiagExclusive
import MammotionRc.Soundness.SessionFollowsLogin
import MammotionRc.Soundness.ErrorTableOnce
import MammotionRc.Soundness.ScanLists
import MammotionRc.Soundness.FailuresDumped
import MammotionRc.Soundness.PairingSaved
import MammotionRc.Soundness.PairingFlow
import MammotionRc.Soundness.ProposalSaved
import MammotionRc.Soundness.PairingRestart
import MammotionRc.Soundness.LogKept
