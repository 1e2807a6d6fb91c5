import EdgeShield.Lib.Machine
import EdgeShield.Lib.Pipe
import EdgeShield.Lib.Bytes
import EdgeShield.Lib.Text
import EdgeShield.Lib.Lines
import EdgeShield.Lib.Sql
import EdgeShield.Lib.Date
import EdgeShield.Lib.Toml
import EdgeShield.Lib.TomlText
import EdgeShield.Common.Types
import EdgeShield.Packet.Decode
import EdgeShield.Packet.Frame
import EdgeShield.Packet.Capture
import EdgeShield.Packet.CaptureLoop
import EdgeShield.Protocol.Classifier
import EdgeShield.Protocol.Mdns
import EdgeShield.Protocol.MdnsName
import EdgeShield.Protocol.MdnsGrammar
import EdgeShield.Protocol.MdnsWalk
import EdgeShield.Protocol.MdnsMessage
import EdgeShield.Protocol.MdnsFraming
import EdgeShield.Protocol.MdnsTruncation
import EdgeShield.Protocol.Dhcp
import EdgeShield.Protocol.DhcpMessage
import EdgeShield.Protocol.DhcpOptions
import EdgeShield.Storage.Store
import EdgeShield.Discovery.Engine
import EdgeShield.Discovery.Accounting
import EdgeShield.Discovery.ChangeLog
import EdgeShield.Discovery.Clock
import EdgeShield.Discovery.Trailer
import EdgeShield.Discovery.Hostname
import EdgeShield.Discovery.DhcpClient
import EdgeShield.Discovery.Growth
import EdgeShield.Oui.Table
import EdgeShield.Common.Alert
import EdgeShield.Config.Config
import EdgeShield.Config.Toml
import EdgeShield.Api.Auth
import EdgeShield.Api.Metrics
import EdgeShield.Api.RateLimit
import EdgeShield.Api.BlockTime
import EdgeShield.Api.Isolation
import EdgeShield.Api.Middleware
import EdgeShield.Rules.Store
import EdgeShield.Rules.Engine
import EdgeShield.Rules.Suppression
import EdgeShield.Rules.Delivery
import EdgeShield.Rules.ConfigBridge
import EdgeShield.Notify.Fanout
import EdgeShield.Notify.AlertPath
import EdgeShield.Daemon.Scanner
import EdgeShield.Daemon.Pipeline
import EdgeShield.Daemon.EventChannel
import EdgeShield.Storage.Sqlite
import EdgeShield.Storage.Flush
import EdgeShield.Storage.WriteBack
import EdgeShield.Storage.Restart
import EdgeShield.Storage.Shown
import EdgeShield.Storage.AlertSqlite
import EdgeShield.Storage.AlertOrder
import EdgeShield.Storage.HistorySqlite
import EdgeShield.Api.Routes
import EdgeShield.Daemon.HistoryTask
import EdgeShield.Daemon.Retention
import EdgeShield.Daemon.Lifetime
import EdgeShield.Daemon.Durability
import EdgeShield.Daemon.Shutdown
import EdgeShield.Daemon.Lives
import EdgeShield.Daemon.Durations
import EdgeShield.Daemon.HistoryRun
import EdgeShield.Tui.App
import EdgeShield.Cli.Setup
import EdgeShield.Api.Audit
import EdgeShield.Api.Server
import EdgeShield.Api.Integrity
import EdgeShield.Api.Lockout
import EdgeShield.Tui.Client
import EdgeShield.Cli.SetupText
import EdgeShield.Cli.SetupConfig
import EdgeShield.Cli.LoadConfig
import EdgeShield.Cli.FirstRun
import EdgeShield.Cli.PidFile
