import OsModa.Base.Time
import OsModa.Base.Outcome
import OsModa.Base.Text
import OsModa.Base.Encoding
import OsModa.Base.Table
import OsModa.Base.HashChain
import OsModa.Base.Machine
import OsModa.Base.Session
import OsModa.Base.CursorSync
import OsModa.Base.Worklist
import OsModa.Agentd.Approval
import OsModa.Agentd.Lifecycle
import OsModa.Agentd.Detection
import OsModa.Agentd.Ledger
import OsModa.Agentd.TamperEvidence
import OsModa.Agentd.Durability
import OsModa.Keyd.FixedAmount
import OsModa.Keyd.Policy
import OsModa.Keyd.Spending
import OsModa.Keyd.Counters
import OsModa.Keyd.WalletStore
import OsModa.Keyd.Transactions
import OsModa.Keyd.Api
import OsModa.Keyd.Metering
import OsModa.Keyd.SendGate
import OsModa.Mesh.Messages
import OsModa.Mesh.Identity
import OsModa.Mesh.Handshake
import OsModa.Mesh.Agreement
import OsModa.Mesh.PlainLibs
import OsModa.Mesh.Transport
import OsModa.Mesh.Peers
import OsModa.Mesh.IdentityBinding
import OsModa.Mesh.Sending
import OsModa.Mesh.Daemon
import OsModa.Mesh.PeerTable
import OsModa.Mesh.RoomStore
import OsModa.Mesh.Gossip
import OsModa.Mesh.RoomSync
import OsModa.Mesh.Flooding
import OsModa.Mesh.GossipOnce
import OsModa.Base.Js
import OsModa.Base.Regex
import OsModa.Base.IsoDay
import OsModa.Base.TimeText
import OsModa.Base.JsMap
import OsModa.Agentd.Capability
import OsModa.Agentd.ApprovalApi
import OsModa.Gateway.Hook
import OsModa.Bridge.ShellExec
import OsModa.Gateway.Spend
import OsModa.Gateway.SpendHistory
import OsModa.Gateway.Turn
import OsModa.Gateway.Loop
import OsModa.Gateway.LoopSchedule
import OsModa.Gateway.LoopStatus
import OsModa.Gateway.LoopLife
import OsModa.Gateway.LoopBound
import OsModa.Gateway.ClaudeCode
import OsModa.Gateway.Drivers
import OsModa.Gateway.LoopFailure
import OsModa.Gateway.Consumers
import OsModa.Gateway.Turns
import OsModa.Gateway.Sessions
import OsModa.Gateway.Billing
import OsModa.Gateway.Budget
import OsModa.Watch.Fleet
import OsModa.Watch.Checks
import OsModa.Watch.Switch
import OsModa.Routines.Routine
import OsModa.Base.File
import OsModa.Routines.Scheduler
import OsModa.Routines.Spacing
import OsModa.Mcpd.Server
import OsModa.Mcpd.Supervision
import OsModa.Base.Float64
import OsModa.Base.Query
import OsModa.Teachd.Knowledge
import OsModa.Teachd.Learning
import OsModa.Teachd.Optimizations
import OsModa.Teachd.Applying
import OsModa.Teachd.Skills
import OsModa.Teachd.SkillIdentity
import OsModa.Teachd.SkillLifecycle
import OsModa.Mcpd.Reload
import OsModa.Mcpd.Published
import OsModa.Base.Dialogue
import OsModa.Mesh.Completion
import OsModa.Mesh.Invites
import OsModa.Mesh.Membership
import OsModa.Gateway.Transcript
import OsModa.Gateway.Chats
import OsModa.Gateway.ChatNames
import OsModa.Gateway.SessionStore
import OsModa.Gateway.CrossChat
import OsModa.Gateway.Peers
import OsModa.Gateway.Awareness
import OsModa.Gateway.ChatHandles
import OsModa.Gateway.ChatLimit
import OsModa.Base.JsValue
import OsModa.Gateway.Credentials
import OsModa.Gateway.ConfigApi
import OsModa.Gateway.ConfigSteps
import OsModa.Gateway.ConfigUpdates
import OsModa.Gateway.ConfigRejections
import OsModa.Gateway.ConfigAgents
import OsModa.Gateway.CredentialStore
import OsModa.Gateway.Migration
import OsModa.Gateway.StoreLoss
import OsModa.Gateway.MigrationCrashes
import OsModa.Gateway.MigrationResumes
import OsModa.Gateway.CredentialTurns
import OsModa.Gateway.Cooldowns
import OsModa.Gateway.GracefulRestart
import OsModa.Gateway.OpenClawAuth
import OsModa.Base.Reader
import OsModa.Base.Rlp
import OsModa.Keyd.EthEncoding
import OsModa.Keyd.SolMessage
import OsModa.Keyd.Allowance
import OsModa.Keyd.KeyCache
import OsModa.Keyd.AmountGrammar
import OsModa.Agentd.Obfuscation
import OsModa.Agentd.Panics
import OsModa.Base.Path
import OsModa.Agentd.Sandbox
import OsModa.Base.IpAddr
import OsModa.Egress.Tunnel
import OsModa.Agentctl.VerifyLedger
import OsModa.Agentd.SchemaMigration
import OsModa.Agentd.Recall
import OsModa.Mesh.Delivery
import OsModa.Mesh.RoomDedup
import OsModa.Mesh.RoomHistory
import OsModa.Watch.RollbackStatus
import OsModa.Watch.ElapsedTests
import OsModa.Watch.Veto
import OsModa.Base.Argv
import OsModa.Base.Spelling
import OsModa.Base.LexicalPath
import OsModa.Watch.Watcher
import OsModa.Watch.HelperCommands
import OsModa.Routines.Cron
import OsModa.Teachd.SequenceMining
import OsModa.Teachd.TimeOrder
import OsModa.Teachd.RestartNames
import OsModa.Teachd.VerifyTwice
import OsModa.Gateway.Backstop
import OsModa.Gateway.PathSpellings
import OsModa.Base.IpText
import OsModa.Base.Growing
import OsModa.Base.Utf8
import OsModa.Agentd.FtsQuery
import OsModa.Agentd.ExpirySweep
import OsModa.Gateway.BaseUrl
import OsModa.Gateway.StopSentinel
import OsModa.Gateway.Recap
import OsModa.Bridge.AppRestart
import OsModa.Gateway.TrajectoryTurns
import OsModa.Gateway.ClaudeStream
import OsModa.Gateway.ConsumersAgree
import OsModa.Gateway.TrajectoryTail
import OsModa.Base.RateLimit
import OsModa.Bridge.ShellRate
import OsModa.Mesh.Admission
import OsModa.Mesh.IdentityLife
import OsModa.Base.JsonText
import OsModa.Agentd.Incidents
import OsModa.Base.Retention
import OsModa.Agentd.Backups
import OsModa.Base.LinkedTree
import OsModa.Bridge.FileTools
import OsModa.Bridge.AppLife
import OsModa.Bridge.AppBoot
import OsModa.Gateway.TwoChannels
import OsModa.Bridge.ToolSessions
import OsModa.Base.Replace
import OsModa.Teachd.SkillText
import OsModa.Teachd.SkillFiles
import OsModa.Base.Shortlist
import OsModa.Teachd.Teacher
