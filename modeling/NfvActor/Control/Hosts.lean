import Mathlib.Tactic
import NfvActor.Control.Links
import NfvActor.Migration.Lookups

/-!
# A runtime and its links

The worker runs the flow actors and owns the links. Handlers see the peers that the commands have left in
`reliables_`, so whether a lookup succeeds depends on commands, packets, messages and timers together.
-/

namespace NfvActor.Control

open NfvActor.Foundation
open NfvActor.Reliable (Packet)
open NfvActor.Actor (Runtime Environment Input Message TimerKind FlowKey srcMac)
open NfvActor.Actor.Runtime (inputRtid)
open Function
open Option (bind_eq_some_iff map_eq_some_iff)

/-- What the links do not determine about the world of a step. -/
structure Answers (σ : Type) where
  connectionUp : UInt32 → Bool
  outputItem : Option (UInt64 × UInt32)
  replicaConnection : Option Bool
  sendOk : Bool
  secondSendOk : Bool
  staleStates : ℕ → σ

namespace Worker

variable {σ : Type}

/-- `reliables_.find` finds a link. -/
def Links (worker : Worker) (runtimeId : UInt32) : Prop :=
  (worker.holder.reliables runtimeId.toInt32).isSome = true

/-- The world of a step, with the links of the worker in it. -/
def environment (worker : Worker) (answers : Answers σ) : Environment σ where
  reliables runtimeId := (worker.holder.reliables runtimeId.toInt32).map fun ptr ↦
    ⟨answers.connectionUp runtimeId,
      ((worker.holder.heap ptr).map fun link ↦ link.remoteRtConfig.val.inputPortMac).getD 0⟩
  macToReliables mac := (worker.holder.macToReliables mac).map fun entry ↦
    (entry.bind worker.holder.heap).map fun link ↦ link.remoteRtConfig.val.runtimeId.toUInt32
  replicaItem := worker.replicasRrlist.head?.map Int32.toUInt32
  outputItem := answers.outputItem
  replicaConnection := answers.replicaConnection
  sendOk := answers.sendOk
  secondSendOk := answers.secondSendOk
  staleStates := answers.staleStates

/-- The peer whose link a command frees. -/
def frees (worker : Worker) (command : Command) : Option Int32 :=
  let runtimeId := command.rtConfig.val.runtimeId
  match command.operation with
  | .deleteInputRuntime | .deleteOutputRuntime => some runtimeId
  | .deleteMigrationTarget | .deleteMigrationSource | .removeReplica | .removeStorage =>
    if (worker.holder.release command.rtConfig).any Prod.snd then some runtimeId else none
  | _ => none

end Worker

/-- The steps of a runtime other than commands. A message comes over the link of its MAC address. -/
inductive Task (σ : Type)
  | beginSchedulerBatch
  | beginControlBatch
  | packet (pkt : Packet)
  | message (mac : UInt64) (message : Message σ)
  | fire (ptr : ℕ) (kind : TimerKind)
  | migrationIteration
  | recoveryIteration

def Task.input {σ : Type} (env : Environment σ) : Task σ → Option (Input σ)
  | beginSchedulerBatch => some .beginSchedulerBatch
  | beginControlBatch => some .beginControlBatch
  | packet pkt => some (.packet env pkt)
  | message mac sent => ((env.macToReliables mac).bind id).map fun senderRtid ↦ .message env senderRtid sent
  | fire ptr kind => some (.fire env ptr kind)
  | migrationIteration => some (.migrationIteration env)
  | recoveryIteration => some (.recoveryIteration env)

/-- One runtime with its flow actors, in a deployment. -/
structure Host (σ τ : Type) where
  site : Site
  runtime : Runtime σ τ

/-- The steps of a host: control plane, references of flows, the two commands for flow actors only, and the work
of the runtime. -/
inductive HostInput (σ : Type)
  | site (input : SiteInput)
  | migrateTo (target : Address) (migrationQouta : UInt64)
  | recover (storage : Address)
  | work (answers : Answers σ) (task : Task σ)

/-- What `add_storage` and `remove_storage` do to the lists of replicas. -/
def obey {σ τ : Type} (rt : Runtime σ τ) (worker : Worker) (command : Command) : Runtime σ τ :=
  let runtimeId := command.rtConfig.val.runtimeId
  match command.operation with
  | .addStorage =>
    if (worker.holder.reliables runtimeId).isNone then rt.addStorage runtimeId.toUInt32 else rt
  | .removeStorage =>
    if (worker.frees command).isSome then rt.removeStorage runtimeId.toUInt32 else rt
  | _ => rt

namespace Host

variable {σ τ : Type}

/-- The worker of the host and the command that a step hands to it. -/
def command (home : Address) (host : Host σ τ) : SiteInput → Option (Worker × Command)
  | .control input => do
    let (_, emission) ← host.site.plane.emit input
    let (address, command) ← emission
    if address = home then (host.site.workers home).map fun worker ↦ (worker, command) else none
  | .flow _ _ => none

/-- The peer that is recorded in a role, for a request that is served. -/
def recorded (home : Address) (host : Host σ τ) (role : Role) (address : Address) : Option Peer := do
  let node ← host.site.plane.nodes home
  if node.activity = .idle then (node.rpc.runtimes role).lookup address else none

def step (home : Address) (host : Host σ τ) : HostInput σ → Option (Host σ τ)
  | .site input => (host.site.step input).map fun site ↦
    ⟨site, ((host.command home input).map fun entry ↦ obey host.runtime entry.1 entry.2).getD host.runtime⟩
  | .migrateTo target migrationQouta => (host.recorded home .migrationTarget target).map fun peer ↦
    { host with runtime := host.runtime.migrateTo migrationQouta peer.val.runtimeId.toUInt32 }
  | .recover storage => (host.recorded home .storage storage).map fun peer ↦
    { host with runtime := host.runtime.recover peer.val.runtimeId.toUInt32 }
  | .work answers task => do
    let worker ← host.site.workers home
    let input ← task.input (worker.environment answers)
    let runtime ← host.runtime.step input
    some { host with runtime := runtime }

end Host

/-- All runs of one runtime in a deployment. -/
def Deployment.hostSystem (σ τ : Type) (deployment : Deployment) (home : Address) :
    TransitionSystem (Host σ τ) (HostInput σ) where
  init host := host.site = deployment.bootSite ∧ (Runtime.system σ τ).init host.runtime
  step := Host.step home

namespace ReliablesHolder

variable {holder holder' : ReliablesHolder} {peer : Peer} {runtimeId : Int32}

theorem isSome_openLink (hlink : (holder.reliables runtimeId).isSome = true) (port : Port) :
    ((holder.openLink port peer).1.reliables runtimeId).isSome = true := by
  simp only [openLink, emplace]
  split
  · exact hlink
  · simp only [setMac, update_apply]
    split
    · rfl
    · exact hlink

theorem isSome_closeLink (hlink : (holder.reliables runtimeId).isSome = true) (port : Port)
    (hne : peer.val.runtimeId ≠ runtimeId) :
    ((holder.closeLink port peer).reliables runtimeId).isSome = true := by
  simp only [closeLink, erase, delMac]
  split
  · exact hlink
  · simp only [update_of_ne hne.symm]
    exact hlink

theorem isSome_acquire (hacquire : holder.acquire peer = some holder') :
    (holder'.reliables peer.val.runtimeId).isSome = true ∧
      ∀ runtimeId, (holder.reliables runtimeId).isSome = true → (holder'.reliables runtimeId).isSome = true := by
  rcases acquire_cases hacquire with ⟨ptr, link, hptr, -, rfl⟩ | ⟨-, rfl⟩
  · exact ⟨by rw [recounted, hptr]; rfl, fun _ hlink ↦ hlink⟩
  · refine ⟨by simp [opened], fun runtimeId hlink ↦ ?_⟩
    simp only [opened, update_apply]
    split
    · rfl
    · exact hlink

theorem isSome_release {freed : Bool} (hrelease : holder.release peer = some (holder', freed))
    (hlink : (holder.reliables runtimeId).isSome = true)
    (hne : freed = true → peer.val.runtimeId ≠ runtimeId) : (holder'.reliables runtimeId).isSome = true := by
  simp only [release, decRefCnt, Option.bind_eq_bind, bind_eq_some_iff, addRefCnt_eq_some] at hrelease
  obtain ⟨ptr, hptr, _, ⟨link, -, rfl⟩, counted, -, hrelease⟩ := hrelease
  split at hrelease
  · cases hrelease
    simp only [delMac, erase, recounted, hptr]
    rw [update_of_ne (hne rfl).symm]
    exact hlink
  · obtain ⟨rfl, -⟩ := Prod.mk.inj (Option.some.inj hrelease)
    exact hlink

end ReliablesHolder

namespace Worker

variable {worker worker' : Worker} {command : Command}

/-- A command leaves all links but the one it frees. -/
theorem isSome_runTask (hrun : worker.runTask command = some worker') {runtimeId : Int32}
    (hlink : (worker.holder.reliables runtimeId).isSome = true) (hfree : worker.frees command ≠ some runtimeId) :
    (worker'.holder.reliables runtimeId).isSome = true := by
  obtain ⟨operation, peer⟩ := command
  obtain ⟨role, rfl | rfl⟩ := exists_role operation
  · have hholder := (runTask_add hrun).1
    split at hholder
    · rw [hholder]
      exact ReliablesHolder.isSome_openLink hlink role.port
    · exact (ReliablesHolder.isSome_acquire hholder).2 runtimeId hlink
  · have hholder := (runTask_delete hrun).1
    split at hholder
    · next hdata =>
      rw [hholder]
      refine ReliablesHolder.isSome_closeLink hlink role.port fun heq ↦ hfree ?_
      cases role <;> simp_all [Role.isDataPlane, frees, Role.deleteOperation]
    · next hcontrol =>
      obtain ⟨freed, hrelease⟩ := hholder
      refine ReliablesHolder.isSome_release hrelease hlink fun hfreed heq ↦ hfree ?_
      cases role <;> simp_all [frees, Role.deleteOperation]

/-- A replica for new flows has been there before, or it has a link now. -/
theorem mem_replicasRrlist_runTask (hrun : worker.runTask command = some worker') {runtimeId : Int32}
    (hmem : runtimeId ∈ worker'.replicasRrlist) :
    runtimeId ∈ worker.replicasRrlist ∨ (worker'.holder.reliables runtimeId).isSome = true := by
  obtain ⟨operation, peer⟩ := command
  obtain ⟨role, rfl | rfl⟩ := exists_role operation
  · obtain ⟨hholder, -, hreplicas, -⟩ := runTask_add hrun
    rw [hreplicas, rrlistAdd] at hmem
    split at hmem
    · next hrole =>
      subst hrole
      refine (List.mem_append.1 hmem).imp_right fun hnew ↦ ?_
      rw [List.mem_singleton.1 hnew]
      exact (ReliablesHolder.isSome_acquire hholder).1
    · exact .inl hmem
  · rw [(runTask_delete hrun).2.2.1, rrlistDelete] at hmem
    split at hmem
    · exact .inl (List.mem_of_mem_erase hmem)
    · exact .inl hmem

theorem reliables_runFlow {event : FlowEvent} (hrun : worker.runFlow event = some worker') :
    worker'.holder.reliables = worker.holder.reliables ∧
      ∀ runtimeId ∈ worker'.replicasRrlist, runtimeId ∈ worker.replicasRrlist := by
  obtain ⟨hholder, hreplicas, -⟩ := runFlow_cases hrun
  refine ⟨?_, fun _ hmem ↦ hreplicas.subset hmem⟩
  rcases hholder with hsame | ⟨_, _, _, -, hcount⟩
  · rw [hsame]
  · rw [hcount]
    rfl

end Worker

/-! ## Runs -/

/-- Nothing depends on the link to a peer: it is the input runtime of no flow, nothing migrates to it, and it is
no replica for new flows. -/
structure Spares {σ τ : Type} (rt : Runtime σ τ) (replicas : List Int32) (runtimeId : Int32) : Prop where
  input : ∀ ptr, rt.Allocated ptr → ptr ≠ Runtime.deadendFlowActor → (rt.routes ptr).1.toInt32 ≠ runtimeId
  target : rt.migration.targetRtId.toInt32 = runtimeId → rt.NothingMigrates
  replica : runtimeId ∉ replicas

/-- Responses name a request, `coordinator_mp` picks actors in use, and new flows come from linked runtimes. -/
structure Worker.Suits {σ τ : Type} (worker : Worker) (rt : Runtime σ τ) (input : Input σ) : Prop where
  named : Actor.Ledger.RepliesNamed input
  picks : ∀ ptr, rt.picks input = some ptr → rt.Allocated ptr
  founds : ∀ key ends, rt.Founds input key ends → worker.Links ends.1

namespace Host

variable {σ τ : Type} {deployment : Deployment} {home : Address} {host host' : Host σ τ}

/-- Links and MAC addresses are kept in step, a link is only freed when nothing depends on it, and migrations
are to linked runtimes. -/
def KeepsPeers (home : Address) (host : Host σ τ) : HostInput σ → Prop
  | .site input => host.site.KeepsLinks input ∧
    ∀ entry ∈ host.command home input, ∀ runtimeId ∈ entry.1.frees entry.2,
      ∀ worker' ∈ entry.1.runTask entry.2, Spares host.runtime worker'.replicasRrlist runtimeId
  | .migrateTo target _ => ∀ worker ∈ host.site.workers home,
    ∀ peer ∈ host.recorded home .migrationTarget target, host.runtime.migration.qouta = 0 →
      worker.Links peer.val.runtimeId.toUInt32
  | .recover _ => True
  | .work answers task => ∀ worker ∈ host.site.workers home,
    ∀ input ∈ task.input (worker.environment answers), worker.Suits host.runtime input

/-- The flow actors know the peers that the worker has links to. -/
structure Connected (deployment : Deployment) (home : Address) (host : Host σ τ) : Prop where
  site : host.site.Linked deployment
  runtime : ∀ worker ∈ host.site.workers home, host.runtime.Acquainted worker.Links
  replicas : ∀ worker ∈ host.site.workers home, ∀ runtimeId ∈ worker.replicasRrlist,
    (worker.holder.reliables runtimeId).isSome = true

/-- A step of the site hands a command to the worker, or does nothing to its links. -/
theorem worker_of_site {input : SiteInput} {site' : Site} (hstep : host.site.step input = some site')
    {worker' : Worker} (hworker' : site'.workers home = some worker') :
    ∃ worker, host.site.workers home = some worker ∧
      (host.command home input = none ∧ worker'.holder.reliables = worker.holder.reliables ∧
          (∀ runtimeId ∈ worker'.replicasRrlist, runtimeId ∈ worker.replicasRrlist) ∨
        ∃ command, host.command home input = some (worker, command) ∧
          worker.runTask command = some worker') := by
  cases input with
  | control =>
    obtain ⟨plane, emission, hemit, hcases⟩ := Site.step_control hstep
    rcases hcases with ⟨rfl, rfl⟩ | ⟨target, command, worker, found, rfl, hworker, hrun, rfl⟩
    · exact ⟨worker', hworker', .inl ⟨by simp [command, hemit], rfl, fun _ hmem ↦ hmem⟩⟩
    · rcases Site.workers_setWorker hworker' with ⟨rfl, rfl⟩ | ⟨hother, hold⟩
      · exact ⟨worker, hworker, .inr ⟨command, by simp [Host.command, hemit, hworker], hrun⟩⟩
      · exact ⟨worker', hold, .inl ⟨by simp [Host.command, hemit, Ne.symm hother], rfl, fun _ hmem ↦ hmem⟩⟩
  | flow =>
    obtain ⟨worker, found, hworker, hrun, rfl⟩ := Site.step_flow hstep
    rcases Site.workers_setWorker hworker' with ⟨rfl, rfl⟩ | ⟨-, hold⟩
    · exact ⟨worker, hworker, .inl ⟨rfl, Worker.reliables_runFlow hrun⟩⟩
    · exact ⟨worker', hold, .inl ⟨rfl, rfl, fun _ hmem ↦ hmem⟩⟩

end Host

/-- A command changes the lists of replicas of the runtime at most. -/
theorem acquainted_obey {σ τ : Type} {rt : Runtime σ τ} {known : UInt32 → Prop} (h : rt.Acquainted known)
    (worker : Worker) (command : Command) : (obey rt worker command).Acquainted known := by
  have hadd (runtimeId : UInt32) : (rt.addStorage runtimeId).Acquainted known := by
    have hstep : rt.step (.addStorage runtimeId) = some (rt.addStorage runtimeId) := rfl
    exact h.step hstep trivial nofun nofun nofun
  have hremove (runtimeId : UInt32) : (rt.removeStorage runtimeId).Acquainted known := by
    have hstep : rt.step (.removeStorage runtimeId) = some (rt.removeStorage runtimeId) := rfl
    exact h.step hstep trivial nofun nofun nofun
  unfold obey
  dsimp only
  split
  · split
    · exact hadd _
    · exact h
  · split
    · exact hremove _
    · exact h
  · exact h

namespace Host

variable {σ τ : Type} {deployment : Deployment} {home : Address} {host host' : Host σ τ}

theorem Connected.step (hseparate : deployment.Separate) (h : host.Connected deployment home)
    {input : HostInput σ} (hkeeps : host.KeepsPeers home input) (hstep : host.step home input = some host') :
    host'.Connected deployment home := by
  cases input with
  | site =>
    obtain ⟨site', hsite, rfl⟩ := map_eq_some_iff.1 hstep
    refine ⟨h.site.step hseparate hkeeps.1 hsite, ?_, ?_⟩
    · intro worker' hworker'
      obtain ⟨worker, hworker, hcases⟩ := worker_of_site hsite hworker'
      have hknown := h.runtime worker hworker
      rcases hcases with ⟨hnone, hlinks, -⟩ | ⟨command, hcommand, hrun⟩
      · rw [hnone]
        refine hknown.mono (fun ptr _ _ hlink ↦ ?_) fun hlink ↦ .inl ?_ <;>
        · rw [Worker.Links, hlinks]
          exact hlink
      · rw [hcommand]
        apply acquainted_obey
        refine hknown.mono (fun ptr hlive hptr hlink ↦ ?_) fun hlink ↦ ?_
        · refine Worker.isSome_runTask hrun hlink fun hfrees ↦ ?_
          exact (hkeeps.2 _ hcommand _ hfrees _ hrun).input ptr hlive hptr rfl
        · by_cases hfrees : worker.frees command = some host.runtime.migration.targetRtId.toInt32
          · exact .inr ((hkeeps.2 _ hcommand _ hfrees _ hrun).target rfl)
          · exact .inl (Worker.isSome_runTask hrun hlink hfrees)
    · intro worker' hworker' runtimeId hmem
      obtain ⟨worker, hworker, hcases⟩ := worker_of_site hsite hworker'
      rcases hcases with ⟨-, hlinks, hsame⟩ | ⟨command, hcommand, hrun⟩
      · rw [hlinks]
        exact h.replicas worker hworker runtimeId (hsame runtimeId hmem)
      · rcases Worker.mem_replicasRrlist_runTask hrun hmem with hold | hlink
        · refine Worker.isSome_runTask hrun (h.replicas worker hworker runtimeId hold) fun hfrees ↦ ?_
          exact (hkeeps.2 _ hcommand _ hfrees _ hrun).replica hmem
        · exact hlink
  | migrateTo _ migrationQouta =>
    obtain ⟨peer, hpeer, rfl⟩ := map_eq_some_iff.1 hstep
    refine ⟨h.site, fun worker hworker ↦ ?_, h.replicas⟩
    have hmigrate : host.runtime.step (.migrateTo migrationQouta peer.val.runtimeId.toUInt32) =
        some (host.runtime.migrateTo migrationQouta peer.val.runtimeId.toUInt32) := rfl
    refine (h.runtime worker hworker).step hmigrate trivial nofun nofun ?_
    rintro _ runtimeId heq hdone
    obtain ⟨-, rfl⟩ := Input.migrateTo.inj heq
    exact hkeeps worker hworker peer hpeer hdone
  | recover =>
    obtain ⟨peer, hpeer, rfl⟩ := map_eq_some_iff.1 hstep
    refine ⟨h.site, fun worker hworker ↦ ?_, h.replicas⟩
    have hrecover : host.runtime.step (.recover peer.val.runtimeId.toUInt32) =
        some (host.runtime.recover peer.val.runtimeId.toUInt32) := rfl
    exact (h.runtime worker hworker).step hrecover trivial nofun nofun nofun
  | work _ task =>
    obtain ⟨worker, hworker, hstep⟩ := bind_eq_some_iff.1 hstep
    obtain ⟨input, hinput, hstep⟩ := bind_eq_some_iff.1 hstep
    obtain ⟨runtime, hruntime, hstep⟩ := bind_eq_some_iff.1 hstep
    cases hstep
    refine ⟨h.site, fun worker' hworker' ↦ ?_, h.replicas⟩
    cases hworker.symm.trans hworker'
    have hsuits := hkeeps worker hworker input hinput
    refine (h.runtime worker hworker).step hruntime hsuits.named hsuits.picks hsuits.founds ?_
    rintro migrationQouta runtimeId rfl
    cases task with
    | message =>
      obtain ⟨_, -, heq⟩ := map_eq_some_iff.1 hinput
      exact nomatch heq
    | _ => exact nomatch Option.some.inj hinput

theorem Connected.boot (hinit : (deployment.hostSystem σ τ home).init host) :
    host.Connected deployment home := by
  obtain ⟨hsite, config, serviceChain, code, zero, sharedState, hruntime⟩ := hinit
  have hlinked : host.site.Linked deployment := by
    rw [hsite]
    exact Site.Linked.boot deployment
  refine ⟨hlinked, fun worker _ ↦ ?_, fun worker hworker runtimeId hmem ↦ ?_⟩
  · rw [hruntime]
    exact .boot worker.Links config serviceChain code zero sharedState
  · rw [hsite] at hworker
    obtain ⟨peer, -, rfl⟩ := map_eq_some_iff.1 hworker
    exact absurd hmem List.not_mem_nil

/-- A message comes over a link that is in `reliables_`. -/
theorem links_of_sender {state : RpcState} {worker : Worker} (hlinked : worker.holder.Linked deployment state)
    {answers : Answers σ} {mac : UInt64} {senderRtid : UInt32}
    (hsender : ((worker.environment answers).macToReliables mac).bind id = some senderRtid) :
    worker.Links senderRtid := by
  obtain ⟨entry, hentry, hsome⟩ := bind_eq_some_iff.1 hsender
  obtain rfl : entry = some senderRtid := hsome
  obtain ⟨value, hvalue, hlink⟩ := map_eq_some_iff.1 hentry
  obtain ⟨link, hheap, rfl⟩ := map_eq_some_iff.1 hlink
  obtain ⟨runtimeId, ptr, found, rfl, hptr, hfound, -⟩ := hlinked.mac hvalue
  cases hfound.symm.trans hheap
  rw [Worker.Links, Int32.toInt32_toUInt32, (hlinked.entry_of_heap hptr hfound).id, hptr]
  rfl

/-- In every run that meets the condition, flow actors look up peers that are in `reliables_`. -/
theorem lookups_present (deployment : Deployment) (hseparate : deployment.Separate) (home : Address)
    (host : Host σ τ) (hreach : (deployment.hostSystem σ τ home).Reachable (KeepsPeers home) host)
    (worker : Worker) (hworker : host.site.workers home = some worker) (answers : Answers σ) (task : Task σ)
    (hkeeps : host.KeepsPeers home (.work answers task)) (input : Input σ)
    (hinput : task.input (worker.environment answers) = some input) (runtimeId : UInt32)
    (hlookup : runtimeId ∈ host.runtime.lookups input) :
    (worker.holder.reliables runtimeId.toInt32).isSome = true := by
  have hconnected : host.Connected deployment home :=
    hreach.invariant (fun _ hinit ↦ .boot hinit) fun _ _ _ h hguard hstep ↦ h.step hseparate hguard hstep
  obtain ⟨node, -, hlinked⟩ := hconnected.site.worker hworker
  have hsuits := hkeeps worker hworker input hinput
  refine (hconnected.runtime worker hworker).lookups hsuits.named hsuits.picks ?_ ?_ hlookup
  · rintro env senderRtid message rfl
    cases task with
    | message =>
      obtain ⟨sender, hsender, heq⟩ := map_eq_some_iff.1 hinput
      obtain ⟨-, rfl, -⟩ := Input.message.inj heq
      exact links_of_sender hlinked hsender
    | _ => exact nomatch Option.some.inj hinput
  · intro env dest henv hreplica
    have hworld : env = worker.environment answers := by
      cases task with
      | message =>
        obtain ⟨sender, -, rfl⟩ := map_eq_some_iff.1 hinput
        exact (Option.some.inj henv).symm
      | beginSchedulerBatch | beginControlBatch =>
        cases hinput
        exact nomatch henv
      | _ =>
        cases hinput
        exact (Option.some.inj henv).symm
    rw [hworld] at hreplica
    obtain ⟨replica, hhead, rfl⟩ := map_eq_some_iff.1 hreplica
    rw [Worker.Links, Int32.toInt32_toUInt32]
    exact hconnected.replicas worker hworker replica (List.mem_of_mem_head? hhead)

/-- A step of the control plane that frees no link. -/
def freesNothing (home : Address) (host : Host σ τ) : HostInput σ → Bool
  | .site input => decide (host.site.KeepsLinks input) &&
    ((host.command home input).bind fun entry ↦ entry.1.frees entry.2).isNone
  | _ => false

theorem keepsPeers_of_freesNothing {input : HostInput σ} (h : host.freesNothing home input = true) :
    host.KeepsPeers home input := by
  cases input with
  | site input =>
    obtain ⟨hlinks, hnone⟩ := Bool.and_eq_true_iff.1 h
    refine ⟨of_decide_eq_true hlinks, fun entry hentry runtimeId hfrees ↦ ?_⟩
    have hfreed : ((host.command home input).bind fun entry ↦ entry.1.frees entry.2) = some runtimeId :=
      bind_eq_some_iff.2 ⟨entry, hentry, hfrees⟩
    rw [hfreed] at hnone
    cases hnone
  | _ => exact absurd h (by simp [freesNothing])

/-- All connections are up and all sends succeed. -/
def allUp : Answers Unit := ⟨fun _ ↦ true, none, none, true, true, fun _ ↦ ()⟩

/-- The first runtime, with a chain of one function. -/
def firstHost : Host Unit Unit := ⟨twoRuntimes.bootSite, Runtime.smallBoot [0]⟩

/-- A TCP packet that the second runtime sends from its control port. -/
def packetFromSecond : Packet :=
  .ofBytes 128 ([0, 0, 0, 0, 0, 0x21, 0x02, 0, 0, 0, 0, 0x03, 0x08, 0x00] ++
    [0x45, 0, 0, 40, 0, 0, 0, 0, 64, 6, 0, 0, 10, 0, 0, 2, 10, 0, 0, 1] ++
    [0x1F, 0x90, 0, 80] ++ List.replicate 16 0)

theorem init_firstHost : (twoRuntimes.hostSystem Unit Unit firstPeer.val.address).init firstHost :=
  ⟨rfl, Runtime.init_smallBoot [0]⟩

/-- The second runtime is a replica of the first, and a new flow looks it up. -/
theorem lookups_present_new_flow :
    ∃ host worker input,
      (twoRuntimes.hostSystem Unit Unit firstPeer.val.address).run firstHost
        ((negotiated .addReplicas 0).map fun step ↦ .site (.control step)) = some host ∧
      host.site.workers firstPeer.val.address = some worker ∧
      (Task.packet packetFromSecond).input (worker.environment allUp) = some input ∧
      2 ∈ host.runtime.lookups input ∧ (worker.holder.reliables (UInt32.toInt32 2)).isSome = true := by
  obtain ⟨host, hhost, worker, hworker, hsource, hlink, hlookup⟩ :
      ∃ host ∈ (twoRuntimes.hostSystem Unit Unit firstPeer.val.address).runChecked
        (freesNothing firstPeer.val.address) firstHost
        ((negotiated .addReplicas 0).map fun step ↦ .site (.control step)),
      ∃ worker ∈ host.site.workers firstPeer.val.address,
        inputRtid (worker.environment allUp) (srcMac packetFromSecond) = some 2 ∧
          (worker.holder.reliables 2).isSome = true ∧
          2 ∈ host.runtime.lookups (.packet (worker.environment allUp) packetFromSecond) := by
    decide +kernel
  have hreach := TransitionSystem.reachable_runChecked _ (.start init_firstHost)
    (fun _ _ hcheck ↦ keepsPeers_of_freesNothing hcheck) hhost
  refine ⟨host, worker, _, TransitionSystem.run_of_runChecked hhost, hworker, rfl, hlookup, ?_⟩
  refine lookups_present twoRuntimes twoRuntimes_separate firstPeer.val.address host hreach worker hworker
    allUp (.packet packetFromSecond) (fun worker' hworker' input hinput ↦ ?_) _ rfl 2 hlookup
  cases hworker.symm.trans hworker'
  cases hinput
  refine ⟨trivial, nofun, fun key ends hfounds ↦ ?_⟩
  cases hfounds with
  | packet _ _ _ _ hinput =>
    cases hsource.symm.trans hinput
    exact hlink

/-- The first runtime migrates a flow whose first packet came from an unknown MAC address. -/
def strayMigration : List (HostInput Unit) :=
  ((negotiated .setMigrationTarget 0).map fun step ↦ .site (.control step)) ++
    [.work allUp (.packet (Runtime.tcpPacket 2)), .migrateTo secondPeer.val.address 1,
      .work allUp .migrationIteration]

/-- The second runtime has created the target of the migration. -/
def targetCreated : Task Unit :=
  .message secondPeer.val.controlPortMac ⟨Actor.coordinatorActorId, 3, 2, .startMigrationResponse 2 4⟩

/-- The actor looks up runtime `0`, which does not exist, and the runtime faults. -/
theorem null_peer_of_stray_flow :
    ∃ host worker input,
      (twoRuntimes.hostSystem Unit Unit firstPeer.val.address).Reachable TransitionSystem.anyStep host ∧
      host.site.workers firstPeer.val.address = some worker ∧
      targetCreated.input (worker.environment allUp) = some input ∧
      0 ∈ host.runtime.lookups input ∧ worker.holder.reliables (UInt32.toInt32 0) = none ∧
      host.runtime.step input = none := by
  obtain ⟨host, hhost, worker, hworker, input, hinput, hlookup, habsent, hfault⟩ :
      ∃ host ∈ (twoRuntimes.hostSystem Unit Unit firstPeer.val.address).run firstHost strayMigration,
      ∃ worker ∈ host.site.workers firstPeer.val.address,
      ∃ input ∈ targetCreated.input (worker.environment allUp), 0 ∈ host.runtime.lookups input ∧
        worker.holder.reliables 0 = none ∧ (host.runtime.step input).isNone = true := by decide +kernel
  exact ⟨host, worker, input, .replay init_firstHost hhost, hworker, hinput, hlookup, habsent,
    Option.isNone_iff_eq_none.1 hfault⟩

end Host

end NfvActor.Control
