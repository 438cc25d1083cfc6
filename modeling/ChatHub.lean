import ChatHub.Base.Run
import ChatHub.Base.Simulation
import ChatHub.Base.Carries
import ChatHub.Base.Heap
import ChatHub.Base.Cursor
import ChatHub.Base.Binary64
import ChatHub.Base.Significand
import ChatHub.Base.PrintedDouble
import ChatHub.Base.Redis
import ChatHub.Base.Kinds
import ChatHub.Lib.HashTable
import ChatHub.Lib.HashTableMap
import ChatHub.Lib.HashTableMemory
import ChatHub.Lib.HashTableLifetime
import ChatHub.Lib.DirectIndex
import ChatHub.Lib.Insertion
import ChatHub.Lib.Parson.Utf8
import ChatHub.Lib.Parson.Value
import ChatHub.Lib.Parson.Parse
import ChatHub.Lib.Parson.RoundTrip
import ChatHub.Lib.Parson.Continuation
import ChatHub.Lib.Parson.Accepted
import ChatHub.Lib.Parson.Buffered
import ChatHub.Lib.Config
import ChatHub.Lib.Message
import ChatHub.Lib.WireNumbers
import ChatHub.Lib.Relay
import ChatHub.Lib.DecodedText
import ChatHub.Lib.CredentialText
import ChatHub.Lib.CredentialSafety
import ChatHub.Client.Callbacks
import ChatHub.Client.Credentials
import ChatHub.Client.Blocks
import ChatHub.Client.Identity
import ChatHub.Client.Lines
import ChatHub.Server.Dao
import ChatHub.Server.DaoFrame
import ChatHub.Server.Operations
import ChatHub.Server.Lost
import ChatHub.Server.Registration
import ChatHub.Server.Accounts
import ChatHub.Server.Records
import ChatHub.Server.RoomKeys
import ChatHub.Server.Ids
import ChatHub.Server.Recipients
import ChatHub.Server.Membership
import ChatHub.Server.FailedRegistration
import ChatHub.Server.Deletion
import ChatHub.Server.Saving
import ChatHub.Server.MessageLog
import ChatHub.Server.Clients
import ChatHub.Server.Framing
import ChatHub.Server.Leftovers
import ChatHub.Server.Handlers
import ChatHub.Server.HandlerFrame
import ChatHub.Server.Dispatch
import ChatHub.Server.WriteSize
import ChatHub.Server.PackedMessage
import ChatHub.Server.TransferBuffer
import ChatHub.Server.Effects
import ChatHub.Server.FailedLookup
import ChatHub.Server.Presence
import ChatHub.Server.Passwords
import ChatHub.Server.Agreement
import ChatHub.Server.Delivery
import ChatHub.Server.Confidentiality
import ChatHub.Server.ExactlyOnce
import ChatHub.Server.StoredOnce
import ChatHub.Server.Answering
import ChatHub.Server.Written
import ChatHub.Server.Survival
import ChatHub.Server.Service
import ChatHub.Server.StoredService
import ChatHub.Server.Refinement
import ChatHub.Network.System
import ChatHub.Network.Order
import ChatHub.Network.Origin
import ChatHub.Network.Progress
import ChatHub.Network.EndToEnd
