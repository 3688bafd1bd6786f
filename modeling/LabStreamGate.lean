import LabStreamGate.Relay.Delivery
import LabStreamGate.Capture.Checksum
import LabStreamGate.Capture.Evidence
import LabStreamGate.Capture.Report
import LabStreamGate.Capture.Retention
import LabStreamGate.Capture.Rotation
import LabStreamGate.Capture.Snaplen
import LabStreamGate.Capture.Truncation
import LabStreamGate.Client.Coherence
import LabStreamGate.Client.Polling
import LabStreamGate.Client.Version
import LabStreamGate.Daemon.Cors
import LabStreamGate.Daemon.Heartbeat
import LabStreamGate.Daemon.Links
import LabStreamGate.Daemon.OriginHistory
import LabStreamGate.Gateway.AllowList
import LabStreamGate.Gateway.Audit
import LabStreamGate.Gateway.Durability
import LabStreamGate.Gateway.Failure
import LabStreamGate.Gateway.Lease
import LabStreamGate.Gateway.Linearization
import LabStreamGate.Gateway.Permits
import LabStreamGate.Gateway.Recording
import LabStreamGate.Gateway.Restart
import LabStreamGate.Gateway.Revocation
import LabStreamGate.Gateway.Target
import LabStreamGate.Desktop.Automaton
import LabStreamGate.Desktop.Cascade
import LabStreamGate.Desktop.Cors
import LabStreamGate.Desktop.EventPump
import LabStreamGate.Desktop.Highlight
import LabStreamGate.Desktop.Isolation
import LabStreamGate.Desktop.Latency
import LabStreamGate.Desktop.LogFiles
import LabStreamGate.Desktop.LogPipeline
import LabStreamGate.Desktop.LogRoundTrip
import LabStreamGate.Desktop.LogStream
import LabStreamGate.Desktop.Ping
import LabStreamGate.Desktop.Pingfall
import LabStreamGate.Desktop.Preview
import LabStreamGate.Desktop.Relaunch
import LabStreamGate.Desktop.Reopening
import LabStreamGate.Desktop.SingleInstance
import LabStreamGate.Desktop.Startup
import LabStreamGate.Desktop.WindowView
