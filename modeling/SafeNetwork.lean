import SafeNetwork.Std.BTreeSet
import SafeNetwork.Std.Proc
import SafeNetwork.Protocol.Types
import SafeNetwork.Protocol.Messages
import SafeNetwork.Protocol.Fanout
import SafeNetwork.Protocol.NetworkAddress
import SafeNetwork.Node.SendAndGet
import SafeNetwork.Node.GetSpend
import SafeNetwork.Node.Pipeline
import SafeNetwork.Node.CloseGroup
import SafeNetwork.Node.EventLoop
import SafeNetwork.Registers.RegisterOp
import SafeNetwork.Registers.Register
import SafeNetwork.Client.Publish
import SafeNetwork.Client.Register
import SafeNetwork.Client.Frontier
