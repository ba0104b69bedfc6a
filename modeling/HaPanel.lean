import HaPanel.Text.Search
import HaPanel.Text.FlatObject
import HaPanel.Text.Bytes
import HaPanel.Text.Escape
import HaPanel.Panel.Json
import HaPanel.Panel.Config
import HaPanel.Panel.Cgi
import HaPanel.Panel.Store
import HaPanel.Panel.Startup
import HaPanel.Panel.Writers
import HaPanel.Panel.Ota
import HaPanel.Panel.Backlight
import HaPanel.Assist.Record
import HaPanel.Assist.Protocol
import HaPanel.Text.BigEndian
import HaPanel.Text.Varint
import HaPanel.WebSocket.Frame
import HaPanel.Transition.Run
import HaPanel.Assist.Markdown
import HaPanel.Assist.Machine
import HaPanel.Assist.Pipeline
import HaPanel.Assist.Answer
import HaPanel.Assist.Microphone
import HaPanel.Mqtt.Packet
import HaPanel.Mqtt.Receive
import HaPanel.Mqtt.Boundaries
import HaPanel.Mqtt.Identifiers
import HaPanel.Panel.Status
import HaPanel.Panel.Validity
import HaPanel.WebSocket.Dispatch
import HaPanel.WebSocket.Messages
import HaPanel.Assist.Child
import HaPanel.Assist.Outcome
import HaPanel.Assist.Pings
import HaPanel.Assist.Timely
import HaPanel.Assist.Listener
import HaPanel.Panel.Polling
import HaPanel.Panel.Request
import HaPanel.Panel.Wifi
import HaPanel.Panel.Logs
import HaPanel.Mqtt.Delivery
import HaPanel.Text.JsonText
import HaPanel.Mqtt.Discovery
import HaPanel.Panel.Updates
import HaPanel.Panel.Form
import HaPanel.Panel.Strings
import HaPanel.Mqtt.Connect
import HaPanel.Mqtt.Commands
import HaPanel.Panel.Brightness
import HaPanel.Assist.Submission
import HaPanel.Assist.Capture
import HaPanel.Panel.Touch
import HaPanel.Assist.Styling
import HaPanel.Text.Utf8
import HaPanel.Assist.Reveal
import HaPanel.Assist.Objects
import HaPanel.Panel.Versions
import HaPanel.Data.Ranking
import HaPanel.Panel.Networks
import HaPanel.Panel.Ssids
import HaPanel.Panel.Releases
import HaPanel.Assist.Wake
import HaPanel.Data.Transfer
import HaPanel.WebSocket.Sending
import HaPanel.Assist.Dialogue
import HaPanel.Data.Intake
import HaPanel.WebSocket.Reading
import HaPanel.Data.Raster
import HaPanel.Panel.Framebuffer
import HaPanel.Mqtt.Availability
import HaPanel.Assist.Supervision
import HaPanel.Panel.Locales
import HaPanel.Panel.Watchdog
import HaPanel.Text.FlatJson
import HaPanel.Panel.Portal
import HaPanel.Panel.Session
import HaPanel.Panel.Preview
