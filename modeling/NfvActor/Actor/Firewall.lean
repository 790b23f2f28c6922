import Mathlib.Tactic
import NfvActor.Actor.NetworkFunction

/-!
# The firewall

The first packet of a flow decides whether the connection may come up; a TCP FIN takes it down again, and any
packet after that makes it bad. A bad connection stays bad.
-/

namespace NfvActor.Actor

open NfvActor.Reliable (Packet)

/-- The values of `connection_status`. -/
def noConnection : UInt8 := 0

@[inherit_doc noConnection]
def connectionUp : UInt8 := 1

@[inherit_doc noConnection]
def connectionDown : UInt8 := 2

@[inherit_doc noConnection]
def badConnection : UInt8 := 3

def protocolTcp : UInt8 := 0x06

def protocolUdp : UInt8 := 0x11

/-- `firewall_fs`. -/
structure FirewallFs where
  srcIp : UInt32
  dstIp : UInt32
  srcPort : UInt16
  dstPort : UInt16
  protocol : UInt8
  passedPkts : UInt32
  droppedPackets : UInt32
  connectionStatus : UInt8
deriving DecidableEq, Repr

/-- `firewall_rule_type`. -/
structure FirewallRule where
  srcIp : UInt32
  srcMask : UInt32
  destIp : UInt32
  destMask : UInt32
deriving DecidableEq, Repr

/-- `convert_string_ip` once the four numbers have been read. -/
def convertStringIp (a b c d : UInt32) : UInt32 :=
  ((a <<< 24) &&& (0xFF000000 : UInt32)) ||| ((b <<< 16) &&& (0x00FF0000 : UInt32)) |||
    ((c <<< 8) &&& (0x0000FF00 : UInt32)) ||| (d &&& (0x000000FF : UInt32))

/-- The mask of a given length. -/
def maskOf (length : ℕ) : UInt32 := 0xFFFFFFFF - UInt32.ofNat (2 ^ (32 - length) - 1)

namespace FirewallRule

/-- A rule from a source address with its mask length to `0.0.0.0/32`. -/
def ofSource (srcIp : UInt32) (srcMaskLength : ℕ) : FirewallRule where
  srcIp := srcIp
  srcMask := maskOf srcMaskLength
  destIp := convertStringIp 0 0 0 0
  destMask := maskOf 32

/-- `firewall_rule_type::match`: the source or the destination is enough. -/
def isMatch (rule : FirewallRule) (srcIp destIp : UInt32) : Bool :=
  srcIp &&& rule.srcMask == rule.srcIp &&& rule.srcMask ||
    destIp &&& rule.destMask == rule.destIp &&& rule.destMask

end FirewallRule

/-- `firewall_shared_state`: the five rules. -/
structure FirewallSharedState where
  rules : List FirewallRule
deriving DecidableEq, Repr

namespace FirewallSharedState

/-- The rules that the constructor sets. -/
def initial : FirewallSharedState where
  rules := [.ofSource (convertStringIp 117 7 8 1) 32, .ofSource (convertStringIp 157 8 8 1) 32,
    .ofSource (convertStringIp 127 9 8 1) 32, .ofSource (convertStringIp 137 10 8 1) 32,
    .ofSource (convertStringIp 147 11 8 1) 32]

def isMatch (shared : FirewallSharedState) (srcIp destIp : UInt32) : Bool :=
  shared.rules.any fun rule ↦ rule.isMatch srcIp destIp

end FirewallSharedState

namespace Firewall

/-- The bytes of a word in the opposite order. -/
def ntol (networkRepresentation : UInt32) : UInt32 :=
  let byte := fun (index : UInt32) ↦ (networkRepresentation >>> (8 * index)) &&& (0xFF : UInt32)
  (byte 0 <<< 24) ||| (byte 1 <<< 16) ||| (byte 2 <<< 8) ||| byte 3

/-- A packet of a bad connection. -/
def reject (fs : FirewallFs) : Bool × FirewallFs :=
  (false, { fs with connectionStatus := badConnection, droppedPackets := fs.droppedPackets + 1 })

/-- The first packet of a flow. -/
def firstPacket (pkt : Packet) (fs : FirewallFs) (shared : FirewallSharedState) : Bool × FirewallFs :=
  let protocolType := UInt8.ofNat (pkt.read (14 + 9) 1)
  if protocolType ≠ protocolTcp ∧ protocolType ≠ protocolUdp then
    reject fs
  else
    let fs := { fs with
      protocol := protocolType
      srcPort := UInt16.ofNat (pkt.read (14 + 20) 2)
      dstPort := UInt16.ofNat (pkt.read (14 + 20 + 2) 2)
      srcIp := ntol (UInt32.ofNat (pkt.read (14 + 12) 4))
      dstIp := ntol (UInt32.ofNat (pkt.read (14 + 16) 4)) }
    if shared.isMatch fs.srcIp fs.dstIp then
      reject fs
    else
      (true, { fs with connectionStatus := connectionUp, passedPkts := fs.passedPkts + 1 })

/-- A packet of an established connection. -/
def nextPacket (pkt : Packet) (fs : FirewallFs) : Bool × FirewallFs :=
  let fin := fs.protocol = protocolTcp ∧ UInt8.ofNat (pkt.read (14 + 20 + 13) 1) &&& 0x01 = 0x01
  (true, { fs with
    connectionStatus := if fin then connectionDown else fs.connectionStatus
    passedPkts := fs.passedPkts + 1 })

/-- `nf_logic_impl`; an unknown status accepts the packet and changes nothing. -/
def nfLogicImpl (pkt : Packet) (fs : FirewallFs) (shared : FirewallSharedState) : Bool × FirewallFs :=
  if fs.connectionStatus = noConnection then firstPacket pkt fs shared
  else if fs.connectionStatus = connectionUp then nextPacket pkt fs
  else if fs.connectionStatus = connectionDown then reject fs
  else if fs.connectionStatus = badConnection then reject fs
  else (true, fs)

def nfInitFsImpl (fs : FirewallFs) : FirewallFs := { fs with connectionStatus := noConnection }

end Firewall

/-- The firewall as a network function. -/
def firewall : NetworkFunction FirewallFs FirewallSharedState where
  nfLogic := fun pkt fs shared ↦
    let result := Firewall.nfLogicImpl pkt fs shared
    (result.1, pkt, result.2, shared)
  nfFlowArrive := fun fs shared _ ↦ (fs, shared)
  nfFlowLeave := fun fs shared _ ↦ (fs, shared)
  nfInitFs := Firewall.nfInitFsImpl

namespace Firewall

variable {pkt : Packet} {fs : FirewallFs} {shared : FirewallSharedState}

theorem reject_status (fs : FirewallFs) : (reject fs).2.connectionStatus = badConnection := rfl

/-- A packet that is rejected leaves a bad connection behind. -/
theorem status_of_rejected (h : (nfLogicImpl pkt fs shared).1 = false) :
    (nfLogicImpl pkt fs shared).2.connectionStatus = badConnection := by
  unfold nfLogicImpl at h ⊢
  split at h
  · next hnone =>
    rw [if_pos hnone]
    unfold firstPacket at h ⊢
    dsimp only at h ⊢
    split at h
    · next hprotocol => rw [if_pos hprotocol, reject_status]
    · next hprotocol =>
      rw [if_neg hprotocol]
      split at h
      · next hmatch => rw [if_pos hmatch, reject_status]
      · cases h
  · next hnone =>
    rw [if_neg hnone]
    split at h
    · exact absurd h (by simp [nextPacket])
    · next hup =>
      rw [if_neg hup]
      split at h
      · next hdown => rw [if_pos hdown, reject_status]
      · next hdown =>
        rw [if_neg hdown]
        split at h
        · next hbad => rw [if_pos hbad, reject_status]
        · cases h

theorem nfLogicImpl_bad (pkt : Packet) (shared : FirewallSharedState)
    (h : fs.connectionStatus = badConnection) : nfLogicImpl pkt fs shared = reject fs := by
  unfold nfLogicImpl
  rw [h, if_neg (by decide), if_neg (by decide), if_neg (by decide), if_pos rfl]

/-- The verdicts on the packets of a flow, in order. -/
def verdicts (shared : FirewallSharedState) : List Packet → FirewallFs → List Bool
  | [], _ => []
  | pkt :: rest, fs =>
    let result := nfLogicImpl pkt fs shared
    result.1 :: verdicts shared rest result.2

theorem verdicts_bad (shared : FirewallSharedState) (pkts : List Packet)
    (h : fs.connectionStatus = badConnection) :
    verdicts shared pkts fs = List.replicate pkts.length false := by
  induction pkts generalizing fs with
  | nil => rfl
  | cons pkt _ ih =>
    rw [verdicts, nfLogicImpl_bad pkt shared h, ih (reject_status fs)]
    rfl

/-- The firewall accepts some packets of a flow and rejects all that follow. -/
theorem verdicts_eq (shared : FirewallSharedState) (pkts : List Packet) (fs : FirewallFs) :
    ∃ accepted rejected, verdicts shared pkts fs =
      List.replicate accepted true ++ List.replicate rejected false := by
  induction pkts generalizing fs with
  | nil => exact ⟨0, 0, rfl⟩
  | cons pkt rest ih =>
    rw [verdicts]
    cases hverdict : (nfLogicImpl pkt fs shared).1 with
    | true =>
      obtain ⟨accepted, rejected, heq⟩ := ih (nfLogicImpl pkt fs shared).2
      refine ⟨accepted + 1, rejected, ?_⟩
      rw [heq, List.replicate_succ, List.cons_append]
    | false =>
      refine ⟨0, rest.length + 1, ?_⟩
      rw [verdicts_bad shared rest (status_of_rejected hverdict)]
      rfl

end Firewall

end NfvActor.Actor
