import SensorHub.Trans.Run
import SensorHub.Trans.Cell
import SensorHub.Uapi.Sample
import SensorHub.Queue.Wait
import SensorHub.Storage.SampleLine
import SensorHub.Driver.Calls
import SensorHub.Driver.Exit
import SensorHub.Driver.Delivery
import SensorHub.Driver.Entry
import SensorHub.Driver.Update
import SensorHub.Driver.Range
import SensorHub.Driver.Wakeup
import SensorHub.Driver.Life
import SensorHub.Daemon.ConfigFile
import SensorHub.Daemon.Pipeline
import SensorHub.Daemon.Available
import SensorHub.Daemon.Main
import SensorHub.Daemon.Drain
import SensorHub.Daemon.Report
import SensorHub.Net.Framing
import SensorHub.Net.Session
import SensorHub.Net.Registry
import SensorHub.Net.Isolation
import SensorHub.Net.Survival
import SensorHub.Net.Broadcast
import SensorHub.Net.UniqueFd
import SensorHub.Daemon.Source
import SensorHub.Driver.Read
import SensorHub.Driver.Inject
import SensorHub.Codec.Segments
import SensorHub.Storage.Rotation
import SensorHub.Codec.Fields
import SensorHub.Codec.Trim
import SensorHub.Daemon.Settings
import SensorHub.Daemon.Numerals
import SensorHub.Daemon.Printed
import SensorHub.Daemon.Layout
import SensorHub.Daemon.Reload
import SensorHub.Driver.Paths
import SensorHub.Tools.Sensorctl
import SensorHub.Storage.ReadBack
import SensorHub.Daemon.Hub
import SensorHub.Daemon.Exports
import SensorHub.Daemon.Simulated
import SensorHub.Driver.Load
import SensorHub.Driver.Show
import SensorHub.Daemon.Logger
import SensorHub.Storage.Writers
import SensorHub.Driver.Poll
import SensorHub.Driver.Ioctl
import SensorHub.Net.Subscribers
import SensorHub.Tools.Dialogue
import SensorHub.Daemon.Signals
import SensorHub.Daemon.Startup
import SensorHub.Tools.Rendezvous
import SensorHub.Tools.Injection
