import TinyDhcpd.OrdMap
import TinyDhcpd.SearchTree
import TinyDhcpd.Run
import TinyDhcpd.Text
import TinyDhcpd.Mask
import TinyDhcpd.Bytes
import TinyDhcpd.Datagram
import TinyDhcpd.OptionArea
import TinyDhcpd.Grammar
import TinyDhcpd.Header
import TinyDhcpd.Numeral
import TinyDhcpd.Inet
import TinyDhcpd.Config
import TinyDhcpd.FixedHosts
import TinyDhcpd.WireOptions
import TinyDhcpd.Startup
import TinyDhcpd.Daemon
import TinyDhcpd.Pool
import TinyDhcpd.Handlers
import TinyDhcpd.Receive
import TinyDhcpd.Answer
import TinyDhcpd.Reply
import TinyDhcpd.Transmit
import TinyDhcpd.Effect
import TinyDhcpd.Faults
import TinyDhcpd.Echo
import TinyDhcpd.Assignment
import TinyDhcpd.Offer
import TinyDhcpd.Search
import TinyDhcpd.Growth
import TinyDhcpd.History
import TinyDhcpd.Decline
import TinyDhcpd.Terms
import TinyDhcpd.Reservation
import TinyDhcpd.LeaseFile
import TinyDhcpd.Loading
import TinyDhcpd.TornFile
import TinyDhcpd.Expiry
import TinyDhcpd.Epoll
import TinyDhcpd.Socket
import TinyDhcpd.Shutdown
import TinyDhcpd.Refinement
import TinyDhcpd.Kernel
import TinyDhcpd.Arp
import TinyDhcpd.Attention
import TinyDhcpd.Interface
import TinyDhcpd.Restart
import TinyDhcpd.Lifecycle
import TinyDhcpd.Portability
import TinyDhcpd.Daemonize
import TinyDhcpd.Log
import TinyDhcpd.Listening
