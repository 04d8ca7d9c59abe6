import Gxmpp.Flush
import Gxmpp.StreamReset
import Gxmpp.RosterIsolation
import Gxmpp.JidAcceptance
import Gxmpp.RosterPresence
import Gxmpp.MediaBlock
import Gxmpp.AudioMute
import Gxmpp.LoginQueue
import Gxmpp.PlainChoice
import Gxmpp.AutoApproval
import Gxmpp.ConnectionLoss
import Gxmpp.ClosedOnce
import Gxmpp.TaskWakes
import Gxmpp.PumpTimeouts
import Gxmpp.PumpRoster
import Gxmpp.DelayedWrap
import Gxmpp.DataRelease
import Gxmpp.NoDeadlock
import Gxmpp.WakeUps
import Gxmpp.SignalThreadLife
import Gxmpp.StreamProgress
import Gxmpp.EventLoop
import Gxmpp.RosterRequests
import Gxmpp.PubsubErrors
import Gxmpp.DiscoItems
import Gxmpp.PubSubReceive
import Gxmpp.IqTask
import Gxmpp.PingTask
import Gxmpp.PresenceCodec
import Gxmpp.ErrorReplies
import Gxmpp.MemberEnumerator
import Gxmpp.ConnectionStatus
import Gxmpp.ChildrenList
import Gxmpp.ElementCopies
import Gxmpp.Base64Unpadded
import Gxmpp.Base64White
import Gxmpp.HexCodec
import Gxmpp.OutputSocket
import Gxmpp.FifoRemainders
import Gxmpp.MemoryArray
import Gxmpp.Flow
import Gxmpp.AsyncWriteStream
import Gxmpp.LogMessage
import Gxmpp.IPMask
import Gxmpp.SocketText
import Gxmpp.StringMatch
import Gxmpp.ReplaceSubstrs
import Gxmpp.InventedPrefix
import Gxmpp.QueueDelay
import Gxmpp.CryptString
import Gxmpp.AdvanceLoop
import Gxmpp.SaslEnd
