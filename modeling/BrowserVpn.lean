import BrowserVpn.Async.Program
import BrowserVpn.Async.View
import BrowserVpn.Core.Pac
import BrowserVpn.Extension.Api
import BrowserVpn.Extension.Background
import BrowserVpn.Extension.Discipline
import BrowserVpn.Extension.Operations
import BrowserVpn.Extension.Quiescence
import BrowserVpn.Extension.Safety
import BrowserVpn.Async.Alone
import BrowserVpn.Core.KeyDecoder
import BrowserVpn.Core.Routing
import BrowserVpn.Data.Run
import BrowserVpn.Data.Split
import BrowserVpn.Data.Tree
import BrowserVpn.Deploy.Config
import BrowserVpn.Deploy.Crash
import BrowserVpn.Deploy.Rollback
import BrowserVpn.Extension.Challenge
import BrowserVpn.Extension.Handover
import BrowserVpn.Extension.IpCheck
import BrowserVpn.Extension.Reapply
import BrowserVpn.Extension.Settling
import BrowserVpn.Server.Auth
import BrowserVpn.Server.Destinations
import BrowserVpn.Server.Dialing
import BrowserVpn.Server.Headers
import BrowserVpn.Server.Refusals
import BrowserVpn.Server.Reload
import BrowserVpn.Server.Tunnel
import BrowserVpn.Extension.Entries
import BrowserVpn.Extension.Standing
import BrowserVpn.Extension.Verdict
import BrowserVpn.Extension.Badge
import BrowserVpn.Deploy.Entrypoint
import BrowserVpn.Deploy.Handout
import BrowserVpn.Installer.Healthcheck
import BrowserVpn.Data.Path
import BrowserVpn.Deploy.Challenges
import BrowserVpn.Deploy.Children
import BrowserVpn.Deploy.Handshake
import BrowserVpn.Async.Implement
import BrowserVpn.Server.Answered
import BrowserVpn.Server.Closing
