import Mathlib.Tactic
import NfvActor.Control.Roles

/-!
# The links of a worker

`reliables_` finds a link by runtime id and `mac_to_reliables_` by the MAC address a packet comes from. Links on
the control port are shared and counted by references. `handle_command` updates both maps, and flow actors take
and drop references on their own.
-/

namespace NfvActor.Control

open Function

/-- The port of a link, the `output_gate` of its `reliable_p2p`. -/
inductive Port where
  | input
  | output
  | control
deriving DecidableEq, Repr

/-- The MAC address from which the peer sends: an input link joins our input port to its output port. -/
def Port.peerMac (peer : Peer) : Port → UInt64
  | input => peer.val.outputPortMac
  | output => peer.val.inputPortMac
  | control => peer.val.controlPortMac

/-- A `reliable_p2p`, as far as the commands look at it. -/
structure ReliableLink where
  port : Port
  refCnt : ℤ
  remoteRtConfig : Peer

def ReliableLink.mac (link : ReliableLink) : UInt64 := link.port.peerMac link.remoteRtConfig

/-- `reliables_holder`. Links are on the heap, so that pointers to freed links show. -/
structure ReliablesHolder where
  heap : ℕ → Option ReliableLink
  nextPtr : ℕ
  reliables : Int32 → Option ℕ
  macToReliables : UInt64 → Option (Option ℕ)

namespace ReliablesHolder

/-- `fast_hash_map::emplace`, which returns null if the key is present. -/
def emplace (holder : ReliablesHolder) (port : Port) (peer : Peer) : ReliablesHolder × Option ℕ :=
  match holder.reliables peer.val.runtimeId with
  | some _ => (holder, none)
  | none =>
    ({ holder with
        heap := update holder.heap holder.nextPtr (some ⟨port, 0, peer⟩)
        nextPtr := holder.nextPtr + 1
        reliables := update holder.reliables peer.val.runtimeId (some holder.nextPtr) },
      some holder.nextPtr)

/-- `fast_hash_map::erase`, which frees the link. -/
def erase (holder : ReliablesHolder) (runtimeId : Int32) : ReliablesHolder :=
  match holder.reliables runtimeId with
  | none => holder
  | some ptr =>
    { holder with
      heap := update holder.heap ptr none
      reliables := update holder.reliables runtimeId none }

/-- `mac_to_reliables_.Set`. -/
def setMac (holder : ReliablesHolder) (mac : UInt64) (ptr : Option ℕ) : ReliablesHolder :=
  { holder with macToReliables := update holder.macToReliables mac (some ptr) }

/-- `mac_to_reliables_.Del`. -/
def delMac (holder : ReliablesHolder) (mac : UInt64) : ReliablesHolder :=
  { holder with macToReliables := update holder.macToReliables mac none }

/-- Change the reference count of the link at a pointer, which must be live. -/
def addRefCnt (holder : ReliablesHolder) (ptr : ℕ) (change : ℤ) : Option ReliablesHolder := do
  let link ← holder.heap ptr
  some { holder with
    heap := update holder.heap ptr (some { link with refCnt := link.refCnt + change }) }

def incRefCnt (holder : ReliablesHolder) (ptr : ℕ) : Option ReliablesHolder := holder.addRefCnt ptr 1

def decRefCnt (holder : ReliablesHolder) (ptr : ℕ) : Option ReliablesHolder := holder.addRefCnt ptr (-1)

/-- A link to a neighbour: the map by MAC address gets what `emplace` returned. -/
def openLink (holder : ReliablesHolder) (port : Port) (peer : Peer) : ReliablesHolder × Option ℕ :=
  let (holder, ptr) := holder.emplace port peer
  (holder.setMac (port.peerMac peer) ptr, ptr)

def closeLink (holder : ReliablesHolder) (port : Port) (peer : Peer) : ReliablesHolder :=
  (holder.erase peer.val.runtimeId).delMac (port.peerMac peer)

/-- A reference to the link on the control port, which is created if there is none. -/
def acquire (holder : ReliablesHolder) (peer : Peer) : Option ReliablesHolder :=
  match holder.reliables peer.val.runtimeId with
  | some ptr => holder.incRefCnt ptr
  | none => do
    let (holder, ptr) := holder.openLink .control peer
    holder.incRefCnt (← ptr)

/-- Drop a reference; the last one frees the link. The flag says whether it did. -/
def release (holder : ReliablesHolder) (peer : Peer) : Option (ReliablesHolder × Bool) := do
  let ptr ← holder.reliables peer.val.runtimeId
  let holder ← holder.decRefCnt ptr
  let link ← holder.heap ptr
  if link.refCnt = 0 then
    some ((holder.delMac link.remoteRtConfig.val.controlPortMac).erase peer.val.runtimeId, true)
  else
    some (holder, false)

/-- A new link in both maps. -/
def opened (holder : ReliablesHolder) (port : Port) (peer : Peer) (refCnt : ℤ) : ReliablesHolder :=
  { heap := update holder.heap holder.nextPtr (some ⟨port, refCnt, peer⟩)
    nextPtr := holder.nextPtr + 1
    reliables := update holder.reliables peer.val.runtimeId (some holder.nextPtr)
    macToReliables := update holder.macToReliables (port.peerMac peer) (some (some holder.nextPtr)) }

/-- A link with another reference count. -/
def recounted (holder : ReliablesHolder) (ptr : ℕ) (link : ReliableLink) (change : ℤ) : ReliablesHolder :=
  { holder with
    heap := update holder.heap ptr (some { link with refCnt := link.refCnt + change }) }

/-- A link is gone from both maps. -/
def closed (holder : ReliablesHolder) (ptr : ℕ) (runtimeId : Int32) (mac : UInt64) : ReliablesHolder :=
  { holder with
    heap := update holder.heap ptr none
    reliables := update holder.reliables runtimeId none
    macToReliables := update holder.macToReliables mac none }

variable {holder holder' : ReliablesHolder} {peer : Peer}

theorem openLink_of_absent (habsent : holder.reliables peer.val.runtimeId = none) (port : Port) :
    holder.openLink port peer = (holder.opened port peer 0, some holder.nextPtr) := by
  simp only [openLink, emplace, habsent]
  rfl

theorem closeLink_of_present {ptr : ℕ} (hptr : holder.reliables peer.val.runtimeId = some ptr) (port : Port) :
    holder.closeLink port peer = holder.closed ptr peer.val.runtimeId (port.peerMac peer) := by
  simp only [closeLink, erase, hptr]
  rfl

theorem closeLink_of_absent (habsent : holder.reliables peer.val.runtimeId = none) (port : Port) :
    holder.closeLink port peer = holder.delMac (port.peerMac peer) := by
  simp only [closeLink, erase, habsent]

theorem addRefCnt_eq_some {ptr : ℕ} {change : ℤ} : holder.addRefCnt ptr change = some holder' ↔
      ∃ link, holder.heap ptr = some link ∧ holder.recounted ptr link change = holder' := by
  simp only [addRefCnt, Option.bind_eq_bind, Option.bind_eq_some_iff, Option.some.injEq]
  rfl

theorem acquire_cases (hacquire : holder.acquire peer = some holder') :
    (∃ ptr link, holder.reliables peer.val.runtimeId = some ptr ∧ holder.heap ptr = some link ∧
        holder' = holder.recounted ptr link 1) ∨
      holder.reliables peer.val.runtimeId = none ∧ holder' = holder.opened .control peer 1 := by
  rw [acquire] at hacquire
  split at hacquire
  · next ptr hptr =>
    obtain ⟨link, hlink, rfl⟩ := addRefCnt_eq_some.1 hacquire
    exact .inl ⟨ptr, link, hptr, hlink, rfl⟩
  · next habsent =>
    rw [openLink_of_absent habsent] at hacquire
    obtain ⟨link, hlink, rfl⟩ := addRefCnt_eq_some.1 hacquire
    simp only [opened, update_self, Option.some.injEq] at hlink
    subst hlink
    refine .inr ⟨habsent, ?_⟩
    simp [recounted, opened]

theorem release_cases {freed : Bool} (hrelease : holder.release peer = some (holder', freed)) :
    ∃ ptr link, holder.reliables peer.val.runtimeId = some ptr ∧ holder.heap ptr = some link ∧
      (link.refCnt ≠ 1 ∧ holder' = holder.recounted ptr link (-1) ∨ link.refCnt = 1 ∧ holder' =
          holder.closed ptr peer.val.runtimeId link.remoteRtConfig.val.controlPortMac) := by
  simp only [release, decRefCnt, Option.bind_eq_bind, Option.bind_eq_some_iff, addRefCnt_eq_some] at hrelease
  obtain ⟨ptr, hptr, _, ⟨link, hlink, rfl⟩, counted, hcounted, hrelease⟩ := hrelease
  refine ⟨ptr, link, hptr, hlink, ?_⟩
  simp only [recounted, update_self, Option.some.injEq] at hcounted
  subst hcounted
  split at hrelease
  · next hzero =>
    obtain ⟨rfl, -⟩ := Prod.mk.inj (Option.some.inj hrelease)
    change link.refCnt + -1 = 0 at hzero
    refine .inr ⟨by omega, ?_⟩
    simp [delMac, erase, recounted, closed, hptr]
  · next hpositive =>
    obtain ⟨rfl, -⟩ := Prod.mk.inj (Option.some.inj hrelease)
    change ¬ link.refCnt + -1 = 0 at hpositive
    exact .inl ⟨by omega, rfl⟩

end ReliablesHolder

/-- The state that commands and flows share. -/
structure Worker where
  holder : ReliablesHolder
  migrationTargets : List Int32
  replicasRrlist : List Int32
  replicaFlowLists : List Int32
  /-- The `r_` of every live flow actor in state `have_replica`. -/
  flows : List (Option ℕ)

namespace Worker

def boot : Worker := ⟨⟨fun _ ↦ none, 0, fun _ ↦ none, fun _ ↦ none⟩, [], [], [], []⟩

/-- `handle_command::RunTask`. Adding an output runtime sends a message at once, so a null link faults. -/
def runTask (worker : Worker) (command : Command) : Option Worker :=
  let peer := command.rtConfig
  let runtimeId := peer.val.runtimeId
  match command.operation with
  | .addInputRuntime => some { worker with holder := (worker.holder.openLink .input peer).1 }
  | .addOutputRuntime => do
    let (holder, ptr) := worker.holder.openLink .output peer
    let _ ← ptr
    some { worker with holder := holder }
  | .deleteInputRuntime => some { worker with holder := worker.holder.closeLink .input peer }
  | .deleteOutputRuntime => some { worker with holder := worker.holder.closeLink .output peer }
  | .setMigrationTarget => do
    let holder ← worker.holder.acquire peer
    some { worker with holder := holder, migrationTargets := worker.migrationTargets ++ [runtimeId] }
  | .migrationNegotiate => do
    let holder ← worker.holder.acquire peer
    some { worker with holder := holder }
  | .deleteMigrationTarget => do
    let (holder, _) ← worker.holder.release peer
    some { worker with holder := holder, migrationTargets := worker.migrationTargets.erase runtimeId }
  | .deleteMigrationSource => do
    let (holder, _) ← worker.holder.release peer
    some { worker with holder := holder }
  | .addReplica => do
    let holder ← worker.holder.acquire peer
    some { worker with holder := holder, replicasRrlist := worker.replicasRrlist ++ [runtimeId] }
  | .addStorage => do
    let replicaFlowLists := match worker.holder.reliables runtimeId with
      | some _ => worker.replicaFlowLists
      | none => worker.replicaFlowLists.insert runtimeId
    let holder ← worker.holder.acquire peer
    some { worker with holder := holder, replicaFlowLists := replicaFlowLists }
  | .removeReplica => do
    let (holder, _) ← worker.holder.release peer
    some { worker with holder := holder, replicasRrlist := worker.replicasRrlist.erase runtimeId }
  | .removeStorage => do
    let (holder, freed) ← worker.holder.release peer
    let replicaFlowLists :=
      if freed then worker.replicaFlowLists.erase runtimeId else worker.replicaFlowLists
    some { worker with holder := holder, replicaFlowLists := replicaFlowLists }

/-- The replicas for new flows, after a peer was recorded in a role. -/
def rrlistAdd (worker : Worker) (role : Role) (runtimeId : Int32) : List Int32 :=
  if role = .replica then worker.replicasRrlist ++ [runtimeId] else worker.replicasRrlist

/-- The replicas for new flows, after a peer was deleted from a role. -/
def rrlistDelete (worker : Worker) (role : Role) (runtimeId : Int32) : List Int32 :=
  if role = .replica then worker.replicasRrlist.erase runtimeId else worker.replicasRrlist

end Worker

/-- The port of the link to a peer in a role. -/
def Role.port : Role → Port
  | .input => .input
  | .output => .output
  | .replica | .storage | .migrationTarget | .migrationSource => .control

namespace Worker

variable {worker worker' : Worker} {role : Role} {peer : Peer}

theorem runTask_add (hrun : worker.runTask ⟨role.addOperation, peer⟩ = some worker') :
    (if role.isDataPlane then worker'.holder = (worker.holder.openLink role.port peer).1
      else worker.holder.acquire peer = some worker'.holder) ∧
      worker'.flows = worker.flows ∧
      worker'.replicasRrlist = worker.rrlistAdd role peer.val.runtimeId ∧
      (role ≠ .storage → worker'.replicaFlowLists = worker.replicaFlowLists) := by
  cases role with
  | input =>
    cases hrun
    exact ⟨rfl, rfl, rfl, fun _ ↦ rfl⟩
  | output =>
    obtain ⟨_, -, hrun⟩ := Option.bind_eq_some_iff.1 hrun
    cases hrun
    exact ⟨rfl, rfl, rfl, fun _ ↦ rfl⟩
  | storage =>
    obtain ⟨holder, hholder, hrun⟩ := Option.bind_eq_some_iff.1 hrun
    cases hrun
    exact ⟨hholder, rfl, rfl, fun h ↦ absurd rfl h⟩
  | replica | migrationTarget | migrationSource =>
    obtain ⟨holder, hholder, hrun⟩ := Option.bind_eq_some_iff.1 hrun
    cases hrun
    exact ⟨hholder, rfl, rfl, fun _ ↦ rfl⟩

theorem runTask_delete (hrun : worker.runTask ⟨role.deleteOperation, peer⟩ = some worker') :
    (if role.isDataPlane then worker'.holder = worker.holder.closeLink role.port peer
      else ∃ freed, worker.holder.release peer = some (worker'.holder, freed)) ∧
      worker'.flows = worker.flows ∧
      worker'.replicasRrlist = worker.rrlistDelete role peer.val.runtimeId ∧
      (role ≠ .storage → worker'.replicaFlowLists = worker.replicaFlowLists) := by
  cases role with
  | input | output =>
    cases hrun
    exact ⟨rfl, rfl, rfl, fun _ ↦ rfl⟩
  | storage =>
    obtain ⟨⟨holder, freed⟩, hholder, hrun⟩ := Option.bind_eq_some_iff.1 hrun
    cases hrun
    exact ⟨⟨freed, hholder⟩, rfl, rfl, fun h ↦ absurd rfl h⟩
  | replica | migrationTarget | migrationSource =>
    obtain ⟨⟨holder, freed⟩, hholder, hrun⟩ := Option.bind_eq_some_iff.1 hrun
    cases hrun
    exact ⟨⟨freed, hholder⟩, rfl, rfl, fun _ ↦ rfl⟩

end Worker

/-- A command adds a peer to a role or deletes one from it. -/
theorem exists_role (operation : RpcOperation) :
    ∃ role : Role, operation = role.addOperation ∨ operation = role.deleteOperation := by
  cases operation with
  | addInputRuntime | deleteInputRuntime => exact ⟨.input, by decide⟩
  | addOutputRuntime | deleteOutputRuntime => exact ⟨.output, by decide⟩
  | setMigrationTarget | deleteMigrationTarget => exact ⟨.migrationTarget, by decide⟩
  | migrationNegotiate | deleteMigrationSource => exact ⟨.migrationSource, by decide⟩
  | addReplica | removeReplica => exact ⟨.replica, by decide⟩
  | addStorage | removeStorage => exact ⟨.storage, by decide⟩

/-! ## Flows -/

/-- A flow is created, is removed as idle, finds its connection down, or leaves for another runtime. -/
inductive FlowEvent where
  | create
  | idle (flow : ℕ)
  | connectionDown (flow : ℕ)
  | migrateOut (flow : ℕ)
deriving DecidableEq

namespace Worker

/-- `flow_actor_init_with_pkt_t`, with the replica from `replicas_rrlist_.rotate`. -/
def createFlow (worker : Worker) : Option Worker :=
  match worker.replicasRrlist with
  | [] => some { worker with flows := worker.flows ++ [none] }
  | runtimeId :: others => do
    let ptr ← worker.holder.reliables runtimeId
    let holder ← worker.holder.incRefCnt ptr
    some { worker with
      holder := holder, replicasRrlist := others ++ [runtimeId], flows := worker.flows ++ [some ptr] }

/-- The removal in `check_idle_t`, which gives the reference back. -/
def removeIdleFlow (worker : Worker) (flow : ℕ) : Option Worker := do
  match ← worker.flows[flow]? with
  | none => some { worker with flows := worker.flows.eraseIdx flow }
  | some ptr =>
    let holder ← worker.holder.decRefCnt ptr
    some { worker with holder := holder, flows := worker.flows.eraseIdx flow }

/-- The test at the head of `replication_output`. -/
def loseConnection (worker : Worker) (flow : ℕ) : Option Worker := do
  let ptr ← (← worker.flows[flow]?)
  let holder ← worker.holder.decRefCnt ptr
  some { worker with holder := holder, flows := worker.flows.set flow none }

/-- The removal in `migrate_flow_state_response_t`, which gives no reference back: `start_migration_t` refuses a
flow with a replica. -/
def removeMigratedFlow (worker : Worker) (flow : ℕ) : Option Worker := do
  match ← worker.flows[flow]? with
  | none => some { worker with flows := worker.flows.eraseIdx flow }
  | some _ => none

def runFlow (worker : Worker) : FlowEvent → Option Worker
  | .create => worker.createFlow
  | .idle flow => worker.removeIdleFlow flow
  | .connectionDown flow => worker.loseConnection flow
  | .migrateOut flow => worker.removeMigratedFlow flow

/-- An event of a flow changes at most one count, and rotates the list of replicas. -/
theorem runFlow_cases {worker worker' : Worker} {event : FlowEvent} (hrun : worker.runFlow event = some worker') :
    (worker'.holder = worker.holder ∨ ∃ ptr link change, worker.holder.heap ptr = some link ∧
      worker'.holder = worker.holder.recounted ptr link change) ∧
      worker'.replicasRrlist.Perm worker.replicasRrlist ∧ worker'.replicaFlowLists = worker.replicaFlowLists := by
  have hcount {ptr : ℕ} {change : ℤ} {holder : ReliablesHolder}
      (hholder : worker.holder.addRefCnt ptr change = some holder) :
      holder = worker.holder ∨ ∃ ptr link change, worker.holder.heap ptr = some link ∧
        holder = worker.holder.recounted ptr link change := by
    obtain ⟨link, hlink, rfl⟩ := ReliablesHolder.addRefCnt_eq_some.1 hholder
    exact .inr ⟨_, link, _, hlink, rfl⟩
  cases event with
  | create =>
    simp only [runFlow, createFlow] at hrun
    split at hrun
    · cases hrun
      exact ⟨.inl rfl, .refl _, rfl⟩
    · next runtimeId others hlist =>
      obtain ⟨ptr, -, hrun⟩ := Option.bind_eq_some_iff.1 hrun
      obtain ⟨holder, hholder, hrun⟩ := Option.bind_eq_some_iff.1 hrun
      cases hrun
      exact ⟨hcount hholder, hlist ▸ List.perm_append_singleton runtimeId others, rfl⟩
  | idle =>
    obtain ⟨ptr, -, hrun⟩ := Option.bind_eq_some_iff.1 hrun
    split at hrun
    · cases hrun
      exact ⟨.inl rfl, .refl _, rfl⟩
    · obtain ⟨holder, hholder, hrun⟩ := Option.bind_eq_some_iff.1 hrun
      cases hrun
      exact ⟨hcount hholder, .refl _, rfl⟩
  | connectionDown =>
    obtain ⟨found, -, hrun⟩ := Option.bind_eq_some_iff.1 hrun
    obtain ⟨ptr, -, hrun⟩ := Option.bind_eq_some_iff.1 hrun
    obtain ⟨holder, hholder, hrun⟩ := Option.bind_eq_some_iff.1 hrun
    cases hrun
    exact ⟨hcount hholder, .refl _, rfl⟩
  | migrateOut =>
    obtain ⟨_, -, hrun⟩ := Option.bind_eq_some_iff.1 hrun
    split at hrun <;> cases hrun
    exact ⟨.inl rfl, .refl _, rfl⟩

end Worker

/-- The control plane together with the worker of every runtime. -/
structure Site where
  plane : Plane
  workers : Address → Option Worker

/-- A step of the control plane, or of a flow at one runtime. -/
inductive SiteInput where
  | control (input : ControlInput)
  | flow (address : Address) (event : FlowEvent)
deriving DecidableEq

namespace Site

def setWorker (site : Site) (address : Address) (worker : Worker) : Site :=
  { site with workers := update site.workers address (some worker) }

/-- The worker executes a command while the RPC thread waits for it. -/
def deliver (site : Site) : Emission → Option Site
  | none => some site
  | some (address, command) => do
    let worker ← site.workers address
    let worker ← worker.runTask command
    some (site.setWorker address worker)

def step (site : Site) : SiteInput → Option Site
  | .control input => do
    let (plane, emission) ← site.plane.emit input
    deliver { site with plane := plane } emission
  | .flow address event => do
    let worker ← site.workers address
    let worker ← worker.runFlow event
    some (site.setWorker address worker)

end Site

namespace Deployment

def bootSite (deployment : Deployment) : Site :=
  ⟨deployment.boot, fun address ↦ (deployment.runtimes address).map fun _ ↦ Worker.boot⟩

/-- All runs of the runtimes of a deployment with their workers. -/
def siteSystem (deployment : Deployment) : Foundation.TransitionSystem Site SiteInput where
  init site := site = deployment.bootSite
  step := Site.step

/-- Different runtimes have different ids and share no MAC address. -/
structure Separate (deployment : Deployment) : Prop where
  id : ∀ {address other peer rival}, deployment.runtimes address = some peer →
    deployment.runtimes other = some rival → peer.val.runtimeId = rival.val.runtimeId → peer = rival
  mac : ∀ {address other peer rival}, deployment.runtimes address = some peer →
    deployment.runtimes other = some rival → ∀ port port' : Port,
    port.peerMac peer = port'.peerMac rival → peer = rival

end Deployment

end NfvActor.Control
