import UpgradeBridge.AcceptToken
import UpgradeBridge.Channel.Exchange
import UpgradeBridge.Channel.Minimal
import UpgradeBridge.Channel.Recorder
import UpgradeBridge.Connect
import UpgradeBridge.Http1.RequestHead
import UpgradeBridge.Http1.ResponseText
import UpgradeBridge.Launch
import UpgradeBridge.Main
import UpgradeBridge.Network.Sites
import UpgradeBridge.Proofs.Body
import UpgradeBridge.Proofs.Capabilities
import UpgradeBridge.Proofs.Delegation
import UpgradeBridge.Proofs.Handshake
import UpgradeBridge.Proofs.Launch
import UpgradeBridge.Proofs.Pipeline
import UpgradeBridge.Proofs.Rewording
import UpgradeBridge.Proofs.Routing
import UpgradeBridge.Proofs.Secrecy
import UpgradeBridge.Proofs.Server
import UpgradeBridge.Proofs.Shutdown
import UpgradeBridge.Script
import UpgradeBridge.Server.Visit
import UpgradeBridge.Settings.Loading
import UpgradeBridge.Shutdown
import UpgradeBridge.Tunnel
import UpgradeBridge.Proofs.Connect
import UpgradeBridge.Proofs.Handover
import UpgradeBridge.Proofs.Bodiless
import UpgradeBridge.Proofs.Base64
import UpgradeBridge.Proofs.Sha1
import UpgradeBridge.Proofs.Token
import UpgradeBridge.Proofs.Nesting
import UpgradeBridge.Proofs.Passage
import UpgradeBridge.Proofs.SocketAddress
import UpgradeBridge.Proofs.Loading
