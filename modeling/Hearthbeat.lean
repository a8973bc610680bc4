import Hearthbeat.Machine.Run
import Hearthbeat.Machine.History
import Hearthbeat.Detector.Basic
import Hearthbeat.Detector.Alarm
import Hearthbeat.Detector.Notices
import Hearthbeat.Text.Bytes
import Hearthbeat.Text.Chunks
import Hearthbeat.Network.Datagram
import Hearthbeat.Network.Exchange
import Hearthbeat.Libevent.Timer
import Hearthbeat.Logtime.Clock
import Hearthbeat.Argparse.Tables
import Hearthbeat.Argparse.Reader
import Hearthbeat.Argparse.Sessions
import Hearthbeat.Argparse.Lines
import Hearthbeat.Monitor.Target
import Hearthbeat.Monitor.Handlers
import Hearthbeat.Monitor.Frame
import Hearthbeat.Monitor.Tracking
import Hearthbeat.Monitor.Alarms
import Hearthbeat.Monitor.Notices
import Hearthbeat.Monitor.Polls
import Hearthbeat.Monitor.Latency
import Hearthbeat.Monitor.Loop
import Hearthbeat.Monitor.OnTime
import Hearthbeat.Monitor.Unread
import Hearthbeat.Beat.Reply
import Hearthbeat.Protocol.Network
import Hearthbeat.Protocol.Up
import Hearthbeat.Protocol.Crash
import Hearthbeat.Logtime.Database
import Hearthbeat.Logtime.Integrity
import Hearthbeat.Logtime.Ledger
import Hearthbeat.Beat.Loop
import Hearthbeat.Beat.Server
import Hearthbeat.Beat.Daemon
import Hearthbeat.Beat.Lifecycle
import Hearthbeat.Monitor.Init
import Hearthbeat.Protocol.Echo
import Hearthbeat.Network.Receive
import Hearthbeat.Monitor.Attribution
import Hearthbeat.Argparse.Properties
import Hearthbeat.Memory.Chain
import Hearthbeat.Argparse.Memory
import Hearthbeat.Monitor.Delay
import Hearthbeat.Monitor.Texts
import Hearthbeat.Argparse.Tails
import Hearthbeat.Telegram.Config
import Hearthbeat.Monitor.Boot
import Hearthbeat.Argparse.Buffers
import Hearthbeat.Monitor.Buffers
import Hearthbeat.Logtime.Exact
import Hearthbeat.Logtime.Shared
import Hearthbeat.Argparse.First
import Hearthbeat.Memory.Alloc
import Hearthbeat.Telegram.Response
import Hearthbeat.Libevent.Late
import Hearthbeat.Monitor.Lateness
import Hearthbeat.Monitor.Pacing
import Hearthbeat.Detector.Late
import Hearthbeat.Monitor.Detection
import Hearthbeat.Monitor.Backlog
import Hearthbeat.CJson.Item
import Hearthbeat.CJson.Parse
import Hearthbeat.CJson.Safe
import Hearthbeat.CJson.RoundTrip
import Hearthbeat.CJson.Print
import Hearthbeat.Telegram.Api
import Hearthbeat.Memory.Heap
import Hearthbeat.Monitor.Cells
import Hearthbeat.CJson.Owned
import Hearthbeat.CJson.Build
import Hearthbeat.Telegram.Leak
