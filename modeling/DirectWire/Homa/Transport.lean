import DirectWire.Lib.Platform
import DirectWire.Lib.Map
import DirectWire.Homa.Packet

/-!
# Homa — configuration and actions

`transport/mod.rs`: the parameters both cores share and what a core asks
its I/O thread to do. The cores never touch a socket; they return
`Action`s. `TransportConfig` keeps the fields the cores read, with the
assumption every use of them makes: the packet size is not zero.
-/

namespace DirectWire.Homa

open Lib

/-- A message is named by its sender's address and the id it was sent under. -/
abbrev MsgKey := SocketAddr × UInt64

inductive Action where
  /-- Send one UDP datagram to `dest`. -/
  | send (dest : SocketAddr) (bytes : Bytes)
  /-- A message is complete; hand it to the layer above. -/
  | deliver (src : SocketAddr) (msgId : UInt64) (data : Bytes)
deriving DecidableEq, Repr

structure TransportConfig where
  /-- Added to an offset in `Nat`: a `Vec` has less than `2 ^ 63` bytes, so that `usize` overflows
  only for packets that no datagram holds. -/
  packetSize : Nat
  packetSize_pos : 0 < packetSize
  unscheduledBytes : Nat
  /-- How far beyond the received bytes a grant reaches. -/
  grantIncrement : Nat
  resendTimeout : Duration
  grantTimeout : Duration
  pokeTimeout : Duration
  retransmitTimeout : Duration
  linger : Duration
  maxIncoming : Nat
  overcommit : Nat
  starveThreshold : Duration
deriving DecidableEq, Repr

/-- A small configuration for concrete runs. Its grant increment is not a
multiple of its packet size. -/
def sampleCfg : TransportConfig :=
  { packetSize := 4, packetSize_pos := by decide, unscheduledBytes := 4, grantIncrement := 9
    resendTimeout := 10, grantTimeout := 10, pokeTimeout := 1000, retransmitTimeout := 1000
    linger := 100000, maxIncoming := 8, overcommit := 1, starveThreshold := 1000 }

def maxMsgLen : Nat := 16 * 2 ^ 20

end DirectWire.Homa
