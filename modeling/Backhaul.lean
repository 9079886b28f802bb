import Backhaul.Wire.Codec
import Backhaul.Wire.Handshake
import Backhaul.Text.Utf8
import Backhaul.Text.Strings
import Backhaul.Text.Strconv
import Backhaul.Client.Transport
import Backhaul.Client.Pool
import Backhaul.Client.Gauge
import Backhaul.Client.Signals
import Backhaul.Server.ChannelHandler
import Backhaul.Server.Mux
import Backhaul.Server.MuxSession
import Backhaul.Server.MuxWedge
import Backhaul.Server.Accept
import Backhaul.Server.WsMux
import Backhaul.Server.PortMapping
import Backhaul.Server.TcpFlow
import Backhaul.Server.MuxFlow
import Backhaul.Server.Restart
