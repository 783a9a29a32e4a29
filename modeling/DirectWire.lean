import DirectWire.Homa.Credit
import DirectWire.Homa.Reassembly
import DirectWire.Homa.Sending
import DirectWire.Homa.Schedule
import DirectWire.Homa.Memory
import DirectWire.Homa.Shutdown
import DirectWire.Homa.Server
import DirectWire.Homa.Calls
import DirectWire.Homa.Cleanup
import DirectWire.Moq.Net
import DirectWire.Moq.Confirmed
import DirectWire.Moq.Ownership
import DirectWire.Moq.Publisher
import DirectWire.Moq.Lossless
import DirectWire.Moq.Handshakes
import DirectWire.Moq.DropQueue
import DirectWire.Moq.Content
import DirectWire.GmPq.EarlyData
import DirectWire.GmPq.Replay
import DirectWire.Mesh.Direct
import DirectWire.Mesh.Stranded
import DirectWire.Mesh.ActiveRelay
import DirectWire.Mesh.Binding
import DirectWire.Mesh.Framing
import DirectWire.Xdp.KernelArith
import DirectWire.Xdp.Simulator
import DirectWire.Xdp.Probes
import DirectWire.Xdp.Limits
import DirectWire.Xdp.SynFlood
import DirectWire.NetSim.Proxy
