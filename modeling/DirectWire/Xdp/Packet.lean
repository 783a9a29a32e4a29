import Mathlib.Tactic

/-!
# XDP edge — packets and actions

The simulator does not parse bytes: a packet is its five-tuple, its TCP flags and its
length.
-/

namespace DirectWire.Xdp

def tcpSyn : UInt8 := 0x02
def tcpAck : UInt8 := 0x10

def protoTcp : UInt8 := 6
def protoUdp : UInt8 := 17

structure FiveTuple where
  srcIp : UInt32
  dstIp : UInt32
  srcPort : UInt16
  dstPort : UInt16
  protocol : UInt8
deriving DecidableEq, Repr

structure Packet where
  tuple : FiveTuple
  tcpFlags : UInt8
  len : UInt32
deriving DecidableEq, Repr

def Packet.isSyn (p : Packet) : Bool := p.tcpFlags &&& tcpSyn != 0 && p.tcpFlags &&& tcpAck == 0

def Packet.isAck (p : Packet) : Bool := p.tcpFlags &&& tcpAck != 0

inductive Action where
  | drop
  | pass
  | forward (backendIp : UInt32)
deriving DecidableEq, Repr

end DirectWire.Xdp
