import WawaServer.Lib.Buffer
import WawaServer.Lib.Frames
import WawaServer.Lib.Loop
import WawaServer.Lib.Demux
import WawaServer.Lib.Runs
import WawaServer.Lib.Simulation
import WawaServer.Lib.Footprint
import WawaServer.Protocol
import WawaServer.State
import WawaServer.Handler
import WawaServer.Callbacks
import WawaServer.StateTheorems
import WawaServer.Effects
import WawaServer.Branches
import WawaServer.Alike
import WawaServer.Sound
import WawaServer.Decomposition
import WawaServer.Reachable
import WawaServer.Slots
import WawaServer.Watchers
import WawaServer.Backpressure
import WawaServer.SendBounds
import WawaServer.RecvBounds
import WawaServer.Response
import WawaServer.Messages
import WawaServer.Framing
import WawaServer.Outbox
import WawaServer.WholeSends
import WawaServer.Demultiplexing
import WawaServer.Relay
import WawaServer.Liveness
import WawaServer.Inert
import WawaServer.Descriptors
import WawaServer.Isolation
import WawaServer.Independence
import WawaServer.Bridges
import WawaServer.Leaving
import WawaServer.Dangling
import WawaServer.Choices
import WawaServer.Sharing
import WawaServer.Registry
import WawaServer.Accept
import WawaServer.Resume
import WawaServer.Answers
import WawaServer.Faults
import WawaServer.Addressing
import WawaServer.Listing
import WawaServer.Clients.Raspi
import WawaServer.Clients.Remote
import WawaServer.Clients.Readers
import WawaServer.Clients.Sending
import WawaServer.Clients.Receiving
import WawaServer.Clients.Video
import WawaServer.Clients.Process
import WawaServer.Clients.Headers
import WawaServer.Clients.Camera
import WawaServer.Clients.Waiting
import WawaServer.Clients.EndToEnd
import WawaServer.Clients.Inbox
import WawaServer.Clients.Threads
import WawaServer.Clients.Routing
import WawaServer.Clients.Requests
import WawaServer.Clients.RaspiEv
import WawaServer.Clients.RaspiEvTheorems
import WawaServer.Clients.Registering
import WawaServer.Clients.Family
import WawaServer.Clients.Forks
import WawaServer.Clients.Streaming
import WawaServer.Clients.Pictures
import WawaServer.Clients.Askers
import WawaServer.Viewers
import WawaServer.Clients.Session
import WawaServer.Clients.Stopping
import WawaServer.Clients.Control
import WawaServer.Clients.Agreement
