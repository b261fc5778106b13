import OttQuic.Basic
import OttQuic.Lib.BigEndian
import OttQuic.Lib.BlockHash
import OttQuic.Lib.CString
import OttQuic.Lib.Coverage
import OttQuic.Lib.Custody
import OttQuic.Lib.Framing
import OttQuic.Lib.Json
import OttQuic.Lib.Keyed
import OttQuic.Lib.Pathname
import OttQuic.Lib.Pledge
import OttQuic.Lib.SlotTable
import OttQuic.Lib.Tokens
import OttQuic.Lib.Transition
import OttQuic.Lib.Base64
import OttQuic.Lib.Fips180
import OttQuic.Lib.JsonText
import OttQuic.Lib.Memory
import OttQuic.Lib.Scan
import OttQuic.Lib.Utf8
import OttQuic.Lib.FlatJson
import OttQuic.Lib.JsonWeight
import OttQuic.Lib.ByteWord
import OttQuic.Lib.Looped
import OttQuic.Lib.Network
import OttQuic.Quic.Packet
import OttQuic.Quic.Stream
import OttQuic.Quic.Reassembly
import OttQuic.Quic.StreamManager
import OttQuic.Quic.Engine
import OttQuic.Quic.ReassemblyRun
import OttQuic.Quic.Connections
import OttQuic.Quic.Independence
import OttQuic.Quic.StreamOffsets
import OttQuic.Quic.Sections
import OttQuic.Quic.Balance
import OttQuic.Quic.ConnTable
import OttQuic.Quic.Receive
import OttQuic.Quic.Refusal
import OttQuic.Quic.Acknowledge
import OttQuic.Quic.Delivery
import OttQuic.Quic.Pending
import OttQuic.Quic.SentPackets
import OttQuic.Quic.Answer
import OttQuic.Quic.Discipline
import OttQuic.Quic.Handshake
import OttQuic.Quic.Notify
import OttQuic.Quic.Senders
import OttQuic.Quic.AckWindow
import OttQuic.Quic.CloseWindow
import OttQuic.Quic.Exchange
import OttQuic.Quic.Integrity
import OttQuic.Db.Database
import OttQuic.Db.Conn
import OttQuic.Db.Sessions
import OttQuic.Db.Statements
import OttQuic.Db.WatchHistory
import OttQuic.Db.Startup
import OttQuic.Auth.Session
import OttQuic.Auth.Lease
import OttQuic.Auth.Logout
import OttQuic.Auth.Extension
import OttQuic.Auth.Lifetime
import OttQuic.Auth.AllOrNothing
import OttQuic.Auth.BlowfishTables
import OttQuic.Auth.Blowfish
import OttQuic.Auth.KeySchedule
import OttQuic.Auth.Digits
import OttQuic.Auth.Bcrypt
import OttQuic.Http.Request
import OttQuic.Http.ParseRequest
import OttQuic.Http.PrintedRequest
import OttQuic.Http.Upload
import OttQuic.Http.Api
import OttQuic.Http.Multipart
import OttQuic.Http.MultipartMemory
import OttQuic.Http.RequestLine
import OttQuic.Http.Admin
import OttQuic.Http.Catalogue
import OttQuic.Http.Form
import OttQuic.Http.JsonBody
import OttQuic.Http.SessionCookie
import OttQuic.Http.StaticFile
import OttQuic.Http.AdminBody
import OttQuic.Http.Rollback
import OttQuic.Http.SendResponse
import OttQuic.Http.StaleBody
import OttQuic.Http.UpdateText
import OttQuic.Http.NamedVideo
import OttQuic.Http.Entitlement
import OttQuic.WebSocket.Io
import OttQuic.WebSocket.Command
import OttQuic.WebSocket.PacketNumbers
import OttQuic.WebSocket.Sha1
import OttQuic.WebSocket.PayloadHex
import OttQuic.WebSocket.Sequential
import OttQuic.WebSocket.VideoChunk
import OttQuic.WebSocket.FlatCommand
import OttQuic.WebSocket.TextFrame
import OttQuic.WebSocket.HandleClient
import OttQuic.WebSocket.ReadFrame
import OttQuic.WebSocket.Authority
import OttQuic.Json
import OttQuic.JsonRows
import OttQuic.Lists
import OttQuic.UploadedVideo
import OttQuic.ListMemory
import OttQuic.Requests
import OttQuic.Provenance
import OttQuic.LoggedIn
import OttQuic.VideoDelivery
import OttQuic.Server.Clients
import OttQuic.Server.Opening
import OttQuic.Server.ApiBody
import OttQuic.Server.Base64
import OttQuic.Server.Upgrade
import OttQuic.Server.Shutdown
import OttQuic.Web.Watch
import OttQuic.Web.Stream
import OttQuic.Web.Seek
import OttQuic.Web.Server
import OttQuic.Web.SegmentCount
