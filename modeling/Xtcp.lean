import Xtcp.Listen.Agreement
import Xtcp.Channel.Notification
import Xtcp.Channel.Receive
import Xtcp.Uip.StaleIds
import Xtcp.Uip.Reentrancy
import Xtcp.Uip.Handover
import Xtcp.Uip.Ownership
import Xtcp.Uip.Grammar
import Xtcp.Sliding.Stream
import Xtcp.Uip.FlowControl
import Xtcp.Buffered.Cutting
import Xtcp.Buffered.LowMark
import Xtcp.Blocking.Write
import Xtcp.Mdns.Silence
import Xtcp.Mdns.Fit
import Xtcp.Mdns.TieBreak
import Xtcp.Pip.Server
import Xtcp.Autoip.Claiming
import Xtcp.Mdns.RoundTrip
import Xtcp.Igmp.Membership
import Xtcp.Tftp.Answer
import Xtcp.Tftp.Received
import Xtcp.Tftp.Transfer
import Xtcp.Tftp.Pairing
import Xtcp.Tftp.Limit
import Xtcp.Mdns.Within
import Xtcp.Pip.Tcp.Delivery
import Xtcp.Pip.Tcp.Outgoing
import Xtcp.Pip.Tcp.Tokens
import Xtcp.Pip.Tcp.Handshake
import Xtcp.Pip.Tcp.Silence
import Xtcp.Uip.Sequence
import Xtcp.Uip.Overlay
import Xtcp.Uip.Split
import Xtcp.Pip.Udp
import Xtcp.Pip.Tftp
import Xtcp.Pip.Address.Claiming
import Xtcp.Pip.Address.Conflict
import Xtcp.Pip.Address.Lease
import Xtcp.Pip.Address.State
import Xtcp.Pip.Frame.Room
import Xtcp.Mdns.Compressed
import Xtcp.Mdns.Reregister
import Xtcp.Igmp.Multicast
import Xtcp.Autoip.Pacing
import Xtcp.Pip.Tcp.Demux
import Xtcp.Pip.Tcp.Reset
import Xtcp.Pip.Tcp.Window
import Xtcp.Pip.WakeUp
import Xtcp.Pip.Address.ArpTable
import Xtcp.Pip.Address.ArpExpiry
import Xtcp.Mdns.Itoa
import Xtcp.Pip.Frame.Sum
import Xtcp.Pip.Frame.Wire
import Xtcp.Pip.Frame.Datagram
import Xtcp.Pip.Frame.Ping
import Xtcp.Pip.Frame.Vlan
import Xtcp.Dhcpc.Exchange
import Xtcp.Dhcpc.Acquire
import Xtcp.Dhcpc.Pacing
import Xtcp.Network.Links
import Xtcp.Arp.Resolve
import Xtcp.Uip.Timeout
import Xtcp.Loop.ClockTime
import Xtcp.Loop.Timers
import Xtcp.Blocking.Session
import Xtcp.Uip.Echo
import Xtcp.Uip.Options
import Xtcp.Uip.Wire
import Xtcp.Stream.Delivered
