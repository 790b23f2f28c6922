import Mathlib.Tactic
import NfvActor.Foundation.NodePool
import NfvActor.Foundation.Transition
import NfvActor.Reliable.PeerToPeer

/-!
# The shared send list and its list items

Every successful `reliable_send` leaves credit on `reliable_send_list_`: items that say how many packets of
which peer may be sent. `send_reliable_msg::RunTask` drains that list into one batch. The round-robin lists of
MAC addresses and replicas draw from the same pool of items. A step is one operation of the worker, or one
iteration of the drain loop.
-/

namespace NfvActor.Reliable

open Foundation
open Function

/-- The lists whose nodes come from `mac_list_item_allocator_`. -/
inductive ItemList
  | reliableSend
  | inputRuntimeMac
  | outputRuntimeMac
  | replicas
deriving DecidableEq, Repr

instance : Fintype ItemList where
  elems := {.reliableSend, .inputRuntimeMac, .outputRuntimeMac, .replicas}
  complete list := by cases list <;> decide

/-- `generic_list_item` without its hook. -/
structure ListItem where
  dstMacAddr : UInt64
  dstRtid : ℤ
  replicaRtid : ℤ
  reliableRtid : ℤ
  pktNum : ℤ
  outputGate : UInt16
deriving DecidableEq, Repr

/-- The fields of `runtime_config` that the commands read. -/
structure RuntimeConfig where
  runtimeId : ℤ
  inputPortMac : UInt64
  outputPortMac : UInt64
  controlPortMac : UInt64
deriving DecidableEq, Repr

/-- The locals of `send_reliable_msg::RunTask`: batch, gates and `first_item`. -/
structure Drain where
  batch : List (UInt16 × Segment Packet)
  firstItem : Option ℕ

/-- `reliable_send_queue_size * 10`, the size of the item pool. -/
def itemPoolSize : ℕ := reliableSendQueueSize * 10

/-- The part of the coordinator that reliable sending works on. -/
structure Outbound (N : ℕ) where
  allocator : RingBuffer ℕ
  links : Links (PoolNode ItemList)
  items : ℕ → ListItem
  reliables : ℤ → Option (PeerToPeer N)
  drain : Option Drain

/-- What a constructor of `reliable_p2p` is given and finds in memory. -/
structure Construction where
  ackFrame : List UInt8
  currentNs : UInt64
  ringBuf : ℕ → Segment Packet
  sendTime : ℕ → UInt64
  rh : Packet → List UInt8
  curMsg : SingleMsg

/-- A new peer. -/
def Construction.build {N : ℕ} (construction : Construction) (rtid : ℤ) (gate : UInt16) :
    PeerToPeer N :=
  PeerToPeer.init rtid gate construction.ackFrame construction.currentNs
    (SendQueue.init construction.ringBuf construction.sendTime construction.rh) construction.curMsg

namespace Outbound

variable {N : ℕ}

/-- All items free, no peers. -/
def init (items : ℕ → ListItem) : Outbound N where
  allocator := RingBuffer.filled itemPoolSize (by decide) id
  links := Links.detached
  items := items
  reliables := fun _ ↦ none
  drain := none

variable (outbound : Outbound N)

/-- An item from the pool, or null from an empty one. -/
def allocate (set : ListItem → ListItem) : Option (ℕ × Outbound N) := do
  let (index, allocator) ← outbound.allocator.pop
  some (index, { outbound with
    allocator
    items := update outbound.items index (set (outbound.items index)) })

def deallocate (index : ℕ) : Outbound N :=
  { outbound with allocator := (outbound.allocator.push index).2 }

/-- Allocate an item and add it to the tail of a list. -/
def addToTail (list : ItemList) (set : ListItem → ListItem) :
    Option (Outbound N) := do
  let (index, outbound) ← outbound.allocate set
  some { outbound with links := outbound.links.addTail (.head list) (.item index) }

/-- Allocate an item and add it to the head of a list. -/
def addToHead (list : ItemList) (set : ListItem → ListItem) :
    Option (Outbound N) := do
  let (index, outbound) ← outbound.allocate set
  some { outbound with links := outbound.links.addHead (.head list) (.item index) }

/-- `peek_head`, as a pointer that may be null. -/
def peekHead (list : ItemList) : Option (Option ℕ) :=
  PoolNode.toItem (outbound.links.peekFirst (.head list))

/-- `peek_tail`. -/
def peekTail (list : ItemList) : Option (Option ℕ) :=
  PoolNode.toItem (outbound.links.peekLast (.head list))

def popHead (outbound : Outbound N) (list : ItemList) : Outbound N :=
  { outbound with links := (outbound.links.popHead (.head list)).2 }

def rotate (list : ItemList) : Outbound N :=
  { outbound with links := (outbound.links.rotateLeft (.head list)).2 }

/-- Commands take the first matching item off a list. -/
def removeFirst (list : ItemList) (matching : ListItem → Bool) :
    Option (Outbound N) := do
  let found ← search outbound.links list (fun index ↦ matching (outbound.items index))
    (outbound.allocator.maxSize + 1) (outbound.links.next (.head list))
  match found with
  | none => some outbound
  | some index =>
    some (deallocate { outbound with links := outbound.links.del (.item index) } index)

/-- The largest value of `int`. -/
def intMax : ℤ := 2 ^ 31 - 1

/-- `pkt_num += num` on an `int`. -/
def addCredit (index num : ℕ) : Option (Outbound N) :=
  let item := outbound.items index
  if item.pktNum + num ≤ intMax then
    some { outbound with
      items := update outbound.items index { item with pktNum := item.pktNum + num } }
  else none

/-- The fields that a new item of the send list is given. -/
def creditItem (p2p : PeerToPeer N) (num : ℕ) (item : ListItem) : ListItem :=
  { item with pktNum := num, reliableRtid := p2p.destRtid, outputGate := p2p.outputGate }

/-- `add_to_reliable_send_list`: credit goes to the last item if it is the peer's. -/
def addToReliableSendList (p2p : PeerToPeer N) (num : ℕ) :
    Option (Outbound N) := do
  match ← outbound.peekTail .reliableSend with
  | none => outbound.addToTail .reliableSend (creditItem p2p num)
  | some index =>
    if (outbound.items index).reliableRtid ≠ p2p.destRtid then
      outbound.addToTail .reliableSend (creditItem p2p num)
    else outbound.addCredit index num

/-- `prepend_to_reliable_send_list`: credit goes to the first item if it is the peer's. -/
def prependToReliableSendList (p2p : PeerToPeer N) (num : ℕ) :
    Option (Outbound N) := do
  match ← outbound.peekHead .reliableSend with
  | none => outbound.addToHead .reliableSend (creditItem p2p num)
  | some index =>
    if (outbound.items index).reliableRtid ≠ p2p.destRtid then
      outbound.addToHead .reliableSend (creditItem p2p num)
    else outbound.addCredit index num

def setPeer (rtid : ℤ) (p2p : PeerToPeer N) : Outbound N :=
  { outbound with reliables := update outbound.reliables rtid (some p2p) }

def erasePeer (rtid : ℤ) : Outbound N :=
  { outbound with reliables := update outbound.reliables rtid none }

/-- A `reliable_send` to an existing peer; an accepted message leaves credit for its packets. -/
def reliableSend (rtid : ℤ) (send : PeerToPeer N → Option (ℕ × PeerToPeer N)) : Option (Outbound N) := do
  let p2p ← outbound.reliables rtid
  let (count, p2p) ← send p2p
  if count = 0 then some (outbound.setPeer rtid p2p)
  else (outbound.setPeer rtid p2p).addToReliableSendList p2p count

/-- `reliable_p2p::check` on an existing peer. -/
def check (outbound : Outbound N) (rtid : ℤ) (currentNs : UInt64) : Option (Outbound N) := do
  let p2p ← outbound.reliables rtid
  let checked := outbound.setPeer rtid (p2p.check currentNs).2
  match (p2p.check currentNs).1 with
  | none => some checked
  | some num => checked.prependToReliableSendList p2p num

/-- `reliable_p2p::recv` on an existing peer, and the `clean` of a message. -/
def recv (outbound : Outbound N) (rtid : ℤ) (fuel : ℕ) (currentNs : UInt64) (pkt : Segment Packet) :
    Option (Outbound N) := do
  let p2p ← outbound.reliables rtid
  let (outcome, p2p) ← p2p.recv fuel currentNs pkt
  some (outbound.setPeer rtid (if outcome.message.isSome then p2p.cleanMsg.2 else p2p))

/-- `get_ack_pkt` on an existing peer. -/
def getAckPkt (outbound : Outbound N) (rtid : ℤ) (allocOk : Bool) : Option (Outbound N) := do
  let p2p ← outbound.reliables rtid
  let (_, p2p) ← p2p.getAckPkt allocOk
  some (outbound.setPeer rtid p2p)

/-- A ping to a new peer; the commands assert that it is accepted. -/
def ping (rtid : ℤ) (msgId : UInt32) (cstruct : List UInt8) :
    Option (Outbound N) :=
  outbound.reliableSend rtid fun p2p ↦
    match p2p.reliableSendCstruct ⟨1, 1, msgId, 1⟩ cstruct true with
    | some (1, p2p) => some (1, p2p)
    | _ => none

/-- `dec_ref_cnt`, and `erase` once the count is zero. -/
def dropReference (rtid : ℤ) : Option (Outbound N) := do
  let p2p ← outbound.reliables rtid
  let p2p := { p2p with refCnt := p2p.refCnt - 1 }
  some (if p2p.refCnt = 0 then outbound.erasePeer rtid else outbound.setPeer rtid p2p)

/-- A peer that commands share: one more reference, or a new peer on the control port. The flag says
whether it is new. -/
def shareReference (rtid : ℤ) (construction : Construction) :
    Bool × Outbound N :=
  match outbound.reliables rtid with
  | some p2p => (false, outbound.setPeer rtid { p2p with refCnt := p2p.refCnt + 1 })
  | none =>
    let p2p := construction.build rtid 2
    (true, outbound.setPeer rtid { p2p with refCnt := p2p.refCnt + 1 })

/-! ## Commands -/

/-- The commands of `handle_command::RunTask` about peers and list items. -/
inductive Command
  | addInputRuntime
  | addOutputRuntime
  | deleteInputRuntime
  | deleteOutputRuntime
  | addInputMac
  | addOutputMac
  | deleteInputMac
  | deleteOutputMac
  | setMigrationTarget
  | migrationNegotiate
  | deleteMigrationTarget
  | deleteMigrationSource
  | addReplica
  | addStorage
  | removeReplica
  | removeStorage
deriving DecidableEq, Repr

/-- What a command finds in memory: the contents of a new peer, and id and bytes of its ping. -/
structure Surroundings where
  construction : Construction
  msgId : UInt32
  pingBytes : List UInt8

/-- A new shared peer is pinged by the side that asked for it. -/
def shareAndPing (rtid : ℤ) (surroundings : Surroundings) :
    Option (Outbound N) :=
  match outbound.shareReference rtid surroundings.construction with
  | (true, outbound) => outbound.ping rtid surroundings.msgId surroundings.pingBytes
  | (false, outbound) => some outbound

/-- `handle_command::RunTask`. -/
def handleCommand (config : RuntimeConfig) (surroundings : Surroundings) :
    Command → Option (Outbound N)
  | .addInputRuntime =>
    match outbound.reliables config.runtimeId with
    | some _ => some outbound
    | none => some (outbound.setPeer config.runtimeId (surroundings.construction.build config.runtimeId 0))
  | .addOutputRuntime =>
    match outbound.reliables config.runtimeId with
    | some _ => none
    | none =>
      (outbound.setPeer config.runtimeId (surroundings.construction.build config.runtimeId 1)).ping
        config.runtimeId surroundings.msgId surroundings.pingBytes
  | .deleteInputRuntime =>
    (outbound.erasePeer config.runtimeId).removeFirst .inputRuntimeMac
      (fun item ↦ item.dstMacAddr = config.outputPortMac)
  | .deleteOutputRuntime =>
    (outbound.erasePeer config.runtimeId).removeFirst .outputRuntimeMac
      (fun item ↦ item.dstMacAddr = config.inputPortMac)
  | .addInputMac =>
    outbound.addToTail .inputRuntimeMac
      (fun item ↦ { item with dstMacAddr := config.outputPortMac, dstRtid := config.runtimeId })
  | .addOutputMac =>
    outbound.addToTail .outputRuntimeMac
      (fun item ↦ { item with dstMacAddr := config.inputPortMac, dstRtid := config.runtimeId })
  | .deleteInputMac =>
    outbound.removeFirst .inputRuntimeMac (fun item ↦ item.dstMacAddr = config.outputPortMac)
  | .deleteOutputMac =>
    outbound.removeFirst .outputRuntimeMac (fun item ↦ item.dstMacAddr = config.inputPortMac)
  | .setMigrationTarget => outbound.shareAndPing config.runtimeId surroundings
  | .migrationNegotiate =>
    some (outbound.shareReference config.runtimeId surroundings.construction).2
  | .deleteMigrationTarget => outbound.dropReference config.runtimeId
  | .deleteMigrationSource => outbound.dropReference config.runtimeId
  | .addReplica => do
    let outbound ← outbound.addToTail .replicas
      (fun item ↦ { item with replicaRtid := config.runtimeId })
    outbound.shareAndPing config.runtimeId surroundings
  | .addStorage => some (outbound.shareReference config.runtimeId surroundings.construction).2
  | .removeReplica => do
    let outbound ← outbound.removeFirst .replicas
      (fun item ↦ item.replicaRtid = config.runtimeId)
    outbound.dropReference config.runtimeId
  | .removeStorage => outbound.dropReference config.runtimeId

/-- The packets of `send_batch` join the batch, which has room for `kMaxBurst`. -/
def addBatch (drain : Drain) (gate : UInt16) (sendBatch : List (Segment Packet)) : Option Drain :=
  let batch := drain.batch ++ sendBatch.map (gate, ·)
  if batch.length ≤ kMaxBurst then some { drain with batch } else none

/-- The head of the send list is popped and goes back to the pool. -/
def retire (index : ℕ) : Outbound N :=
  (outbound.popHead .reliableSend).deallocate index

/-- The entry of `send_reliable_msg::RunTask`. -/
def startDrain : Option (Outbound N) := do
  let firstItem ← outbound.peekHead .reliableSend
  some { outbound with drain := some ⟨[], firstItem⟩ }

/-- After `first_item` was retired the drain goes on with the new head. -/
def nextItem (drain : Drain) : Option (Outbound N) := do
  let firstItem ← outbound.peekHead .reliableSend
  some { outbound with drain := some { drain with firstItem } }

/-- One iteration, for an item of an existing peer. An item whose credit fills the batch keeps the rest;
`first_item` stays even when nothing remains. -/
def sendItem (drain : Drain) (index : ℕ) (p2p : PeerToPeer N)
    (copyOk : ℕ → Bool) (currentNs : UInt64) : Option (Outbound N) :=
  let item := outbound.items index
  let residualBatchSize := kMaxBurst - drain.batch.length
  if (residualBatchSize : ℤ) ≤ item.pktNum then do
    let sent := p2p.sendQueue.getWindowBatch residualBatchSize copyOk currentNs
    let drain ← addBatch drain item.outputGate sent.1
    let debited := { outbound.setPeer item.reliableRtid { p2p with sendQueue := sent.2 } with
      items := update outbound.items index
        { item with pktNum := item.pktNum - residualBatchSize }
      drain := some drain }
    some (if item.pktNum - residualBatchSize = 0 then debited.retire index else debited)
  else if item.pktNum < 0 then none
  else do
    let sent := p2p.sendQueue.getWindowBatch item.pktNum.toNat copyOk currentNs
    let drain ← addBatch drain item.outputGate sent.1
    nextItem ((outbound.setPeer item.reliableRtid { p2p with sendQueue := sent.2 }).retire index) drain

/-- One iteration of the loop of `send_reliable_msg::RunTask`. -/
def drainStep (drain : Drain) (copyOk : ℕ → Bool) (currentNs : UInt64) :
    Option (Outbound N) :=
  if drain.batch.length < kMaxBurst then
    match drain.firstItem with
    | none => none
    | some index =>
      match outbound.reliables (outbound.items index).reliableRtid with
      | none => nextItem (outbound.retire index) drain
      | some p2p => outbound.sendItem drain index p2p copyOk currentNs
  else none

/-- The loop ends with a full batch or at the end of the list. -/
def Drain.finished (drain : Drain) : Bool :=
  kMaxBurst ≤ drain.batch.length || drain.firstItem.isNone

/-- The operations of the worker thread. -/
inductive Operation
  | sendCstruct (rtid : ℤ) (address : PeerToPeer.Address) (cstruct : List UInt8) (allocOk : Bool)
  | sendBatch (rtid : ℤ) (address : PeerToPeer.Address) (batch : List Packet)
  | sendReplication (rtid : ℤ) (address : PeerToPeer.Address) (fsStateBatch : List Packet)
      (dpPkt : Packet) (allocOk : Bool)
  | recv (rtid : ℤ) (fuel : ℕ) (currentNs : UInt64) (pkt : Segment Packet)
  | check (rtid : ℤ) (currentNs : UInt64)
  | getAckPkt (rtid : ℤ) (allocOk : Bool)
  | rotate (list : ItemList)
  | command (command : Command) (config : RuntimeConfig) (surroundings : Surroundings)
  | startDrain
  | drainStep (copyOk : ℕ → Bool) (currentNs : UInt64)
  | finishDrain

/-- The operations outside the drain loop. -/
def applyIdle : Operation → Option (Outbound N)
  | .sendCstruct rtid address cstruct allocOk =>
    outbound.reliableSend rtid fun p2p ↦ p2p.reliableSendCstruct address cstruct allocOk
  | .sendBatch rtid address batch =>
    outbound.reliableSend rtid fun p2p ↦ p2p.reliableSendBatch address batch
  | .sendReplication rtid address fsStateBatch dpPkt allocOk =>
    outbound.reliableSend rtid fun p2p ↦
      p2p.reliableSendReplication address fsStateBatch dpPkt allocOk
  | .recv rtid fuel currentNs pkt => outbound.recv rtid fuel currentNs pkt
  | .check rtid currentNs => outbound.check rtid currentNs
  | .getAckPkt rtid allocOk => outbound.getAckPkt rtid allocOk
  | .rotate list => if list = .reliableSend then none else some (outbound.rotate list)
  | .command command config surroundings => outbound.handleCommand config surroundings command
  | .startDrain => outbound.startDrain
  | .drainStep _ _ => none
  | .finishDrain => none

/-- The worker runs `RunTask` to its end before it does anything else. -/
def step (operation : Operation) : Option (Outbound N) :=
  match outbound.drain with
  | none => outbound.applyIdle operation
  | some drain =>
    match operation with
    | .drainStep copyOk currentNs => outbound.drainStep drain copyOk currentNs
    | .finishDrain => if Drain.finished drain then some { outbound with drain := none } else none
    | _ => none

/-- A runtime's sending side as a transition system. -/
def system (N : ℕ) : TransitionSystem (Outbound N) Operation where
  init outbound := ∃ items, outbound = init items
  step := step

end Outbound

end NfvActor.Reliable
