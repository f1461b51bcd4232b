import MiniEcu.Lib.Trace
import MiniEcu.Lib.Simulation
import MiniEcu.Lib.Mailbox
import MiniEcu.Mcal.BusOff
import MiniEcu.Lib.Memory
import MiniEcu.Lib.Windows
import MiniEcu.Lib.Words
import MiniEcu.Lib.Crc
import MiniEcu.Lib.Ring
import MiniEcu.IsoTp.Types
import MiniEcu.IsoTp.World
import MiniEcu.IsoTp.Code
import MiniEcu.IsoTp.History
import MiniEcu.IsoTp.TwoLinks
import MiniEcu.IsoTp.Handshake
import MiniEcu.IsoTp.FlowGrant
import MiniEcu.IsoTp.DeadBus
import MiniEcu.IsoTp.Outcomes
import MiniEcu.IsoTp.Pacing
import MiniEcu.IsoTp.Reactive
import MiniEcu.IsoTp.Callbacks
import MiniEcu.IsoTp.Applications
import MiniEcu.Dtc.Manager
import MiniEcu.Dtc.History
import MiniEcu.Dtc.Pending
import MiniEcu.Uds.Server
import MiniEcu.Uds.Services
import MiniEcu.Uds.Grammar
import MiniEcu.Uds.Lifetime
import MiniEcu.Uds.Checked
import MiniEcu.Uds.BufferSize
import MiniEcu.Uds.Effects
import MiniEcu.Diag.App
import MiniEcu.Diag.Turns
import MiniEcu.Diag.Resets
import MiniEcu.Diag.Calls
import MiniEcu.Diag.Bus
import MiniEcu.E2e.Code
import MiniEcu.E2e.Sequence
import MiniEcu.E2e.Corruption
import MiniEcu.E2e.Remainder
import MiniEcu.Control.App
import MiniEcu.Control.Output
import MiniEcu.Control.StaleBytes
import MiniEcu.Control.Latch
import MiniEcu.Sensor.App
import MiniEcu.Sensor.Speed
import MiniEcu.Sensor.TesterApp
import MiniEcu.Sensor.Handover
import MiniEcu.Sensor.Sequence
import MiniEcu.Sensor.Bench
import MiniEcu.Control.Tasks
import MiniEcu.Control.Moves
import MiniEcu.Control.Interleaving
import MiniEcu.Control.Observer
import MiniEcu.Control.Traffic
import MiniEcu.Tester.Client
import MiniEcu.Tester.Pending
import MiniEcu.Tester.Records
import MiniEcu.Tester.Services
import MiniEcu.Tester.Dtcs
import MiniEcu.Tester.Late
import MiniEcu.Tester.Remote
import MiniEcu.Tester.Scenario
