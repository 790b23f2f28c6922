import Mathlib.Tactic
import NfvActor.Actor.NetworkFunction

/-!
# The address translation

A flow takes a source address and port from the pool of its runtime with its first packet, and all its
packets are rewritten to it. A flow that finds the pool empty is rejected for good.
-/

namespace NfvActor.Nf

open NfvActor.Actor
open NfvActor.Reliable (Packet littleEndian)

/-- `ip_port_tuple`, in network byte order. -/
structure IpPort where
  srcIp : UInt32
  srcPort : UInt16
deriving DecidableEq, Repr

/-- The values of `nat_status`. -/
def noNatAllocation : UInt8 := 1

@[inherit_doc noNatAllocation]
def hasNatAllocation : UInt8 := 2

@[inherit_doc noNatAllocation]
def natAllocationException : UInt8 := 3

/-- `nat_fs`. -/
structure NatFs where
  ipPort : IpPort
  natStatus : UInt8
deriving DecidableEq, Repr

/-- `nat_shared_state`: the pool, first element first. -/
structure NatSharedState where
  addressPool : List IpPort
deriving DecidableEq, Repr

namespace NatSharedState

/-- `nat_allocate`; an empty pool gives the tuple of zeroes. -/
def natAllocate (shared : NatSharedState) : IpPort × NatSharedState :=
  match shared.addressPool with
  | [] => (⟨0, 0⟩, shared)
  | first :: rest => (first, ⟨rest⟩)

def natDeallocate (shared : NatSharedState) (ipPort : IpPort) : NatSharedState :=
  ⟨ipPort :: shared.addressPool⟩

end NatSharedState

namespace SourceNat

/-- The two stores that rewrite a packet. -/
def rewrite (pkt : Packet) (ipPort : IpPort) : Packet :=
  (pkt.write (14 + 12) (littleEndian 4 ipPort.srcIp.toNat)).write (14 + 20)
    (littleEndian 2 ipPort.srcPort.toNat)

/-- The first packet of a flow. -/
def firstPacket (pkt : Packet) (fs : NatFs) (shared : NatSharedState) :
    Bool × Packet × NatFs × NatSharedState :=
  let (ipPort, shared) := shared.natAllocate
  if ipPort.srcIp = 0 ∧ ipPort.srcPort = 0 then
    (false, pkt, { fs with natStatus := natAllocationException }, shared)
  else
    (true, rewrite pkt ipPort, ⟨ipPort, hasNatAllocation⟩, shared)

/-- `nf_logic_impl`; an unknown status accepts the packet and changes nothing. -/
def nfLogicImpl (pkt : Packet) (fs : NatFs) (shared : NatSharedState) :
    Bool × Packet × NatFs × NatSharedState :=
  if fs.natStatus = noNatAllocation then firstPacket pkt fs shared
  else if fs.natStatus = hasNatAllocation then (true, rewrite pkt fs.ipPort, fs, shared)
  else if fs.natStatus = natAllocationException then (false, pkt, fs, shared)
  else (true, pkt, fs, shared)

/-- `nf_flow_leave_impl`: only an idle flow gives its address back. -/
def nfFlowLeaveImpl (fs : NatFs) (shared : NatSharedState) : LeaveStatus → NatSharedState
  | .idle => if fs.natStatus = hasNatAllocation then shared.natDeallocate fs.ipPort else shared
  | .migrateOut => shared

def nfInitFsImpl (fs : NatFs) : NatFs := { fs with natStatus := noNatAllocation }

end SourceNat

/-- The class `nat` as a network function. -/
def nat : NetworkFunction NatFs NatSharedState where
  nfLogic := SourceNat.nfLogicImpl
  nfFlowArrive := fun fs shared _ ↦ (fs, shared)
  nfFlowLeave := fun fs shared status ↦ (fs, SourceNat.nfFlowLeaveImpl fs shared status)
  nfInitFs := SourceNat.nfInitFsImpl

end NfvActor.Nf
