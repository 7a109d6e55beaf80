import Cosign.Lib.Prog
import Cosign.Lib.Runs
import Cosign.Lib.Pool
import Cosign.Lib.Fuel
import Cosign.Common.Text
import Cosign.Common.Argcargv
import Cosign.Common.Mkcookie
import Cosign.Common.Conf
import Cosign.Common.Substitute
import Cosign.Common.Readconf
import Cosign.Common.Reload
import Cosign.Daemon.Store
import Cosign.Daemon.Cparse
import Cosign.Daemon.Session
import Cosign.Daemon.Login
import Cosign.Daemon.Handlers
import Cosign.Daemon.Monster
import Cosign.Daemon.Command
import Cosign.Daemon.Record
import Cosign.Daemon.Effects
import Cosign.Daemon.Time
import Cosign.Daemon.Publish
import Cosign.Daemon.Transfer
import Cosign.Daemon.LoginFailure
import Cosign.Daemon.Upload
import Cosign.Daemon.Footprint
import Cosign.Daemon.Sweeps
import Cosign.Daemon.Steps
import Cosign.Daemon.Lifetime
import Cosign.Daemon.Starttls
import Cosign.Daemon.Upgrade
import Cosign.Daemon.Outcomes
import Cosign.Daemon.Access
import Cosign.Daemon.Bindings
import Cosign.Daemon.Lineage
import Cosign.Daemon.Identity
import Cosign.Daemon.Collect
import Cosign.Daemon.Push
import Cosign.Daemon.Finality
import Cosign.Daemon.Logout
import Cosign.Filter.Scookie
import Cosign.Filter.Connect
import Cosign.Filter.Cookiefs
import Cosign.Filter.Replies
import Cosign.Filter.Validity
import Cosign.Filter.Latency
import Cosign.Filter.Pairing
import Cosign.Filter.Rekeyed
import Cosign.Filter.Cached
import Cosign.Filter.Codec
import Cosign.Filter.Cookies
import Cosign.Filter.Policy
import Cosign.Daemon.Paths
import Cosign.Cgi.Cookies
import Cosign.Lib.Distinct
import Cosign.Cgi.Network
import Cosign.Cgi.Check
import Cosign.Cgi.Post
import Cosign.Cgi.Reauth
import Cosign.Filter.Factors
import Cosign.Filter.Banner
import Cosign.Filter.Choose
import Cosign.Filter.Retry
import Cosign.Cgi.Suffix
import Cosign.Cgi.Choose
import Cosign.Cgi.Subfile
import Cosign.Daemon.Roles
import Cosign.Daemon.Framing
import Cosign.Daemon.Pusher
import Cosign.Daemon.Merge
import Cosign.Daemon.Room
import Cosign.Daemon.Stamps
import Cosign.Daemon.Tellings
import Cosign.Lib.Links
import Cosign.Lib.Workers
import Cosign.Lib.Via
import Cosign.Cgi.GetPath
import Cosign.Daemon.Pusherparent
import Cosign.Daemon.Peers
import Cosign.Daemon.Arguments
import Cosign.Common.Hosts
import Cosign.Lib.Stores
import Cosign.Common.Fbase64
import Cosign.Common.Bounds
import Cosign.Common.Acav
import Cosign.Daemon.Epoch
import Cosign.Filter.Capabilities
import Cosign.Filter.Retr
import Cosign.Cgi.Loop
import Cosign.Lib.Lines
import Cosign.Lib.Segments
import Cosign.Libsnet.Buffer
import Cosign.Libsnet.Reading
import Cosign.Libsnet.Writef
import Cosign.Libsnet.Wire
import Cosign.Libcgi.Form
import Cosign.Cgi.Logout
import Cosign.Filter.Apache
import Cosign.Lib.Joint
import Cosign.Filter.Site
import Cosign.Filter.Signout
import Cosign.Libsnet.Multi
import Cosign.Filter.Signon
