import IotRange.Library.Bytes
import IotRange.Library.Machine
import IotRange.Library.Framing
import IotRange.Library.ChallengeResponse
import IotRange.Library.LastWrite
import IotRange.Library.Ndef
import IotRange.Library.Traced
import IotRange.Library.Mailbox
import IotRange.AppTlv
import IotRange.AppProtocol.Constants
import IotRange.AppFields
import IotRange.AppAuth.Sha256
import IotRange.AppAuth
import IotRange.AppProtocol.Read
import IotRange.AppProtocol.Write
import IotRange.AppProtocol
import IotRange.AppProtocol.Replies
import IotRange.AppConfig.Ble
import IotRange.AppConfig.Ndef
import IotRange.AppConfig.Setters
import IotRange.Device
import IotRange.Mediation
import IotRange.WriteCommand
import IotRange.ReadBack
import IotRange.Sessions
import IotRange.Provisioning
import IotRange.Isolation
import IotRange.NdefBounds
import IotRange.NfcReply
import IotRange.NdefLayout
import IotRange.StaleTag
import IotRange.NdefFallthrough
import IotRange.ReadReply
import IotRange.Revocation
import IotRange.FactoryReset
import IotRange.StoredConfig
import IotRange.Accesses
import IotRange.AccessBounds
import IotRange.NdefFile
import IotRange.FlashUpdate
import IotRange.FlashHandOff
import IotRange.Library.Reassembly
import IotRange.Library.Coverage
import IotRange.OtaTransfer
import IotRange.OtaLifeCycle
import IotRange.OtaProgress
import IotRange.Handshake
import IotRange.Library.BlockHash
import IotRange.Library.Fips180
import IotRange.AppAuth.Sha256Transform
import IotRange.Sha256Streaming
import IotRange.TlvRoundTrip
import IotRange.TlvTiling
import IotRange.ReadAll
import IotRange.ReadAcceptance
import IotRange.WriteAcceptance
import IotRange.PersistedTag
import IotRange.BleUart
import IotRange.BleReplies
import IotRange.RetryBudget
import IotRange.Connections
import IotRange.Library.Text
import IotRange.ShellCmd
import IotRange.ConfigReport
import IotRange.Library.HexDump
import IotRange.OtaDump
import IotRange.Library.Simulation
import IotRange.Program
import IotRange.Transport
import IotRange.Library.KeyValue
import IotRange.Registry
import IotRange.Retransmission
import IotRange.PowerState
import IotRange.Library.Credit
import IotRange.Quiescence
import IotRange.Library.Restart
import IotRange.PowerCycle
import IotRange.Startup
import IotRange.WriteBatches
import IotRange.Expiry
import IotRange.Upload
