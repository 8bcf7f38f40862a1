import ViamEthercat.Lib.Run
import ViamEthercat.Lib.Round
import ViamEthercat.Lib.Streak
import ViamEthercat.Lib.Checked
import ViamEthercat.Lib.Fallible
import ViamEthercat.Lib.LittleEndian
import ViamEthercat.Lib.Decay
import ViamEthercat.Lib.Window
import ViamEthercat.Lib.Approach
import ViamEthercat.Lib.Countdown
import ViamEthercat.Lib.Dialogue
import ViamEthercat.Ethercat.Cia402
import ViamEthercat.Ethercat.CommandQueue
import ViamEthercat.Ethercat.Cycle
import ViamEthercat.Ethercat.Util
import ViamEthercat.Ethercat.Sequencer
import ViamEthercat.Ethercat.Master
import ViamEthercat.Ethercat.PdoMapping
import ViamEthercat.Ethercat.SlaveDictionary
import ViamEthercat.Ethercat.PdoBuffer
import ViamEthercat.Ethercat.RxSnapshot
import ViamEthercat.Ethercat.Runner
import ViamEthercat.Ethercat.RunnerOwner
import ViamEthercat.Ethercat.CycleContext
import ViamEthercat.Ethercat.Realtime
import ViamEthercat.Ethercat.SoemBackend
import ViamEthercat.Ethercat.MasterBus
import ViamEthercat.Ethercat.BusRules
import ViamEthercat.Wpilib.TrapezoidProfile
import ViamEthercat.Servo.Trapezoid
import ViamEthercat.Servo.MotionMode
import ViamEthercat.Servo.Controller
import ViamEthercat.Servo.Config
import ViamEthercat.Servo.Session
import ViamEthercat.Servo.Teardown
import ViamEthercat.Servo.Threads
import ViamEthercat.Servo.Stores
import ViamEthercat.Servo.BusRecovery
import ViamEthercat.Servo.Gantry
import ViamEthercat.Servo.AbsoluteEncoder
import ViamEthercat.Servo.DriveConfig
import ViamEthercat.Servo.CharConv
import ViamEthercat.Servo.SdoCodec
import ViamEthercat.Servo.Attributes
import ViamEthercat.Servo.HomingRun
import ViamEthercat.Servo.HomingMachine
import ViamEthercat.Proofs.Step
import ViamEthercat.Proofs.Motion
import ViamEthercat.Proofs.Handshake
import ViamEthercat.Proofs.Session
import ViamEthercat.Proofs.StopWins
import ViamEthercat.Proofs.Disable
import ViamEthercat.Proofs.Homing
import ViamEthercat.Proofs.CspCompletion
import ViamEthercat.Proofs.ProfileCompletion
import ViamEthercat.Proofs.Profile
import ViamEthercat.Proofs.Wire
import ViamEthercat.Proofs.Requests
import ViamEthercat.Proofs.Restart
import ViamEthercat.Proofs.FailedMove
import ViamEthercat.Proofs.LatestWins
import ViamEthercat.Proofs.Discard
import ViamEthercat.Proofs.CspHold
import ViamEthercat.Proofs.Recovery
import ViamEthercat.Proofs.ShutdownRamp
import ViamEthercat.Proofs.StopBudget
import ViamEthercat.Proofs.Threads
import ViamEthercat.Proofs.FullQueue
import ViamEthercat.Proofs.VelocityYields
import ViamEthercat.Proofs.OwnMove
import ViamEthercat.Proofs.Waiters
import ViamEthercat.Proofs.Stores
import ViamEthercat.Proofs.RunStart
import ViamEthercat.Proofs.SlotClaim
import ViamEthercat.Proofs.WakeUp
import ViamEthercat.Proofs.ControlWords
import ViamEthercat.Proofs.ModeEcho
import ViamEthercat.Proofs.FaultReset
import ViamEthercat.Proofs.QuickStop
import ViamEthercat.Proofs.SetpointEdges
import ViamEthercat.Proofs.BusLost
import ViamEthercat.Proofs.Bringup
import ViamEthercat.Proofs.WkcLatch
import ViamEthercat.Proofs.HookProtocol
import ViamEthercat.Proofs.Untorn
import ViamEthercat.Proofs.GantryHome
import ViamEthercat.Proofs.EncoderCache
import ViamEthercat.Proofs.Images
import ViamEthercat.Proofs.ClearConfirm
import ViamEthercat.Proofs.HandshakeTiming
import ViamEthercat.Proofs.HomingBound
import ViamEthercat.Proofs.HomingRequest
import ViamEthercat.Proofs.HomingTorque
import ViamEthercat.Proofs.HomeClaim
import ViamEthercat.Proofs.HomingExclusive
import ViamEthercat.Proofs.Fields
import ViamEthercat.Proofs.PdoProgram
import ViamEthercat.Proofs.Dispatch
import ViamEthercat.Proofs.SdoCodec
import ViamEthercat.Proofs.IntegerText
import ViamEthercat.Proofs.Attributes
import ViamEthercat.Proofs.DriveParameters
import ViamEthercat.Proofs.MoveSpeed
import ViamEthercat.Proofs.PhaseLock
import ViamEthercat.Proofs.Pacer
import ViamEthercat.Proofs.VelocityRun
import ViamEthercat.Proofs.ShutdownSlows
import ViamEthercat.Proofs.HaltHolds
import ViamEthercat.Proofs.ErrorTier
import ViamEthercat.Proofs.RestVerdict
import ViamEthercat.Proofs.ZeroedFrame
import ViamEthercat.Proofs.Positioning
import ViamEthercat.Proofs.PositioningRun
import ViamEthercat.Proofs.BusSession
import ViamEthercat.Proofs.RunnerOwner
import ViamEthercat.Proofs.BoundedStop
import ViamEthercat.Proofs.MotorCommands
import ViamEthercat.Proofs.SdoReadBack
import ViamEthercat.Proofs.EnableLadder
