import ThinEdge.Lib.Transition
import ThinEdge.Lib.RoundRobin
import ThinEdge.Lib.Bytes
import ThinEdge.Lib.FillBuffer
import ThinEdge.Lib.Decimal
import ThinEdge.Lib.Calendar
import ThinEdge.Lib.Reader
import ThinEdge.Lib.SortedTable
import ThinEdge.Lib.Backward
import ThinEdge.Lib.Ber
import ThinEdge.Lib.Cursor
import ThinEdge.Lib.Storage
import ThinEdge.Snmp.Agent
import ThinEdge.Snmp.Walk
import ThinEdge.Snmp.Bulk
import ThinEdge.Snmp.BerTree
import ThinEdge.Snmp.BerOid
import ThinEdge.Snmp.Answer
import ThinEdge.Snmp.BerNumbers
import ThinEdge.Snmp.Listener
import ThinEdge.Snmp.Statics
import ThinEdge.Snmp.Trap
import ThinEdge.Snmp.ColdStart
import ThinEdge.Snmp.LinkTraps
import ThinEdge.Modbus.Framing
import ThinEdge.Modbus.Pairing
import ThinEdge.Boot.Handoff
import ThinEdge.Boot.Sticky
import ThinEdge.Net.TryCredentials
import ThinEdge.Net.Watchdog
import ThinEdge.Common.Liveness
import ThinEdge.Settings.Onboarding
import ThinEdge.Provisioner.Improv
import ThinEdge.Provisioner.ImprovGrammar
import ThinEdge.Provisioner.ImprovReassembly
import ThinEdge.Provisioner.ImprovPresence
import ThinEdge.Provisioner.ZtpReceive
import ThinEdge.Provisioner.ZtpReassembly
import ThinEdge.Provisioner.ZtpRelay
import ThinEdge.Provisioner.ZtpTime
import ThinEdge.Provisioner.Advertising
import ThinEdge.Provisioner.ZtpApply
import ThinEdge.Provisioner.ZtpExpiry
import ThinEdge.Provisioner.ZtpSession
import ThinEdge.Provisioner.ZtpSend
import ThinEdge.Provisioner.ZtpC8y
import ThinEdge.Provisioner.ZtpWifi
import ThinEdge.Lib.Scan
import ThinEdge.Provisioner.ZtpSlices
import ThinEdge.Provisioner.ZtpManifestText
import ThinEdge.Provisioner.ZtpUnknown
import ThinEdge.Lib.Json
import ThinEdge.Provisioner.ZtpCanonical
import ThinEdge.Common.ButtonGesture
import ThinEdge.Common.PressPattern
import ThinEdge.Net.Outage
import ThinEdge.Common.Diag
import ThinEdge.Settings.HostName
import ThinEdge.Provisioner.CaptiveDns
import ThinEdge.Lib.CText
import ThinEdge.Provisioner.FormField
import ThinEdge.Provisioner.PortalHttp
import ThinEdge.Provisioner.PortalSegments
import ThinEdge.Common.StatusLedReturn
import ThinEdge.Net.WaitConnected
import ThinEdge.Release.Names
import ThinEdge.Common.ResetRecord
import ThinEdge.Snmp.Manager
import ThinEdge.Provisioner.ZtpVerdict
import ThinEdge.Snmp.TrapWire
import ThinEdge.Soak.Poll
import ThinEdge.Soak.TrapLog
import ThinEdge.Soak.Outages
import ThinEdge.Provisioner.ImprovVerdict
import ThinEdge.Net.Reconnect
import ThinEdge.Provisioner.PortalSession
