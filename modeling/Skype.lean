import Skype.ChatCodec
import Skype.StreamBounds
import Skype.StreamRoundTrip
import Skype.TextFraming
import Skype.UserAwaiting
import Skype.Library.Transition
import Skype.Library.Linked
import Skype.TimeoutRecords
import Skype.CallMachine
import Skype.PeerToPeer
import Skype.PeerEndpoints
import Skype.PeerLifetime
import Skype.PeerHandshake
import Skype.ServerReplies
import Skype.Contacts
import Skype.ContactChanges
import Skype.CentralGui
import Skype.JobBus
import Skype.IncomingCalls
import Skype.MessageDisplay
import Skype.Library.Sql
import Skype.ServerTables
import Skype.ChatControllers
import Skype.Router
import Skype.Attribution
import Skype.DeliveredChats
import Skype.Passwords
import Skype.QueryShape
import Skype.ChatLoading
import Skype.ConnectionPoll
import Skype.PassiveConn
import Skype.WireFormat
import Skype.PeerStrategy
import Skype.ContactList
import Skype.ContactNames
import Skype.PeerCalls
import Skype.ConcurrentContacts
import Skype.Sessions
import Skype.OneSession
import Skype.LostConnections
import Skype.Mailbox
import Skype.HeaderWait
import Skype.PacketSplit
import Skype.StreamCompleteness
import Skype.HeaderParsing
import Skype.AllDelivered
import Skype.SendOutcomes
import Skype.MainLoop
import Skype.LockFreeAudioQueue
import Skype.AudioBank
import Skype.AudioPlayback
import Skype.LoginOutcomes
import Skype.ChatReading
import Skype.ChatOrder
import Skype.UserUpdates
import Skype.Config
import Skype.Splitters
import Skype.CallReject
import Skype.MessageDelivery
import Skype.AudioRoundTrip
import Skype.ContactRequests
import Skype.VideoCall
