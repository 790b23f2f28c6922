import Mathlib.Tactic
import NfvActor.Actor.Changes
import NfvActor.Migration.Network

/-!
# Output commit of replicated flows

A flow actor with a replica does not put out its packets: each travels to the replica with the flow states it
has led to, and the replica puts it out after it has taken these over. Every runtime is observed while the
network runs: which packets were processed, which were put out and on whose message. A packet that reaches the
replica itself is processed and put out there like any other.
-/

namespace NfvActor.Replication

open NfvActor.Foundation
open NfvActor.Reliable (Packet)
open NfvActor.Actor
open NfvActor.Actor.Runtime (deadendFlowActor)
open NfvActor.Migration
open Function

/-- A packet as it leaves the chain, and the flow states of its actor then. -/
structure Commit (σ : Type) where
  key : FlowKey
  pkt : Packet
  states : Holding σ

variable {σ τ : Type} {message : Message σ} {mid : Runtime σ τ}

/-- A packet put out, and the sender of the replication message it stood in. -/
structure Emission (σ : Type) where
  commit : Commit σ
  sender : Option UInt32

/-- What is put out on a replication message of the given runtime. -/
def Emission.sentBy (source : UInt32) (emission : Emission σ) : Option (Commit σ) :=
  if emission.sender = some source then some emission.commit else none

/-- The packet that an actor processes when a packet arrives, if it does. -/
def served (rt : Runtime σ τ) (env : Environment σ) (pkt : Packet) (rt' : Runtime σ τ) :
    List (Commit σ) :=
  match rt.receiver env pkt with
  | some (ptr, mid) =>
    let actor := mid.actors ptr
    if actor.currentState.processes then
      [⟨actor.flowKey, writeEther (NfTable.runChain actor.chain pkt mid.nfs).2.1 actor.outputHeader,
        rt'.flowStates ptr⟩]
    else
      []
  | none => []

/-- What a runtime puts out when a replication message arrives. -/
def passedOn (rt : Runtime σ τ) (message : Message σ) (rt' : Runtime σ τ) : List (Commit σ) :=
  match message.body with
  | .replication _ _ key _ _ =>
    (rt'.gb.drop rt.gb.length).map fun output ↦
      ⟨key, output.1, (rt'.htable key).elim [] rt'.flowStates⟩
  | _ => []

/-- What a replication message says about its sender, for a chain. -/
def Commit.ofMessage (serviceChain : List ℕ) (message : Message σ) : Option (Commit σ) :=
  match message.body with
  | .replication _ _ key states pkt => some ⟨key, pkt, Holding.load states 0 serviceChain⟩
  | _ => none

/-- A network, the packets each runtime has processed, and those it has put out. -/
structure Observed (σ τ : Type) where
  net : Network σ τ
  processed : UInt32 → List (Commit σ)
  emitted : UInt32 → List (Emission σ)

namespace Observed

/-- What a step adds to the processed packets. -/
def serves (event : Input σ) (rt rt' : Runtime σ τ) : List (Commit σ) :=
  match event with
  | .packet env pkt => served rt env pkt rt'
  | _ => []

/-- What a runtime puts out when a flow state arrives: what its receiver has kept. -/
def replayed (rt : Runtime σ τ) (message : Message σ) (rt' : Runtime σ τ) : List (Commit σ) :=
  match message.body, rt.actoridHtable message.recvActorId with
  | .migrateFlowState _, some ptr =>
    (rt'.gb.drop rt.gb.length).map fun output ↦ ⟨(rt.actors ptr).flowKey, output.1, rt'.flowStates ptr⟩
  | _, _ => []

/-- The packets that the step of one runtime puts out. -/
def emits (event : Input σ) (rt rt' : Runtime σ τ) : List (Emission σ) :=
  match event with
  | .packet _ pkt => (rt'.ecSchedulerBatch.drop rt.ecSchedulerBatch.length).map fun output ↦
    ⟨⟨flowKeyOf pkt, output, (rt'.htable (flowKeyOf pkt)).elim [] rt'.flowStates⟩, none⟩
  | .message _ senderRtid message =>
    (passedOn rt message rt').map (fun commit ↦ ⟨commit, some senderRtid⟩) ++
      (replayed rt message rt').map fun commit ↦ ⟨commit, none⟩
  | _ => []

/-- Those that stood in replication messages of the given source. -/
def passes (source : UInt32) (event : Input σ) (rt rt' : Runtime σ τ) : List (Commit σ) :=
  match event with
  | .message _ senderRtid message => if senderRtid = source then passedOn rt message rt' else []
  | _ => []

theorem filterMap_emits (source : UInt32) (event : Input σ) (rt rt' : Runtime σ τ) :
    (emits event rt rt').filterMap (Emission.sentBy source) = passes source event rt rt' := by
  have hdirect {α : Type} (commit : α → Commit σ) (outputs : List α) :
      (outputs.map fun output ↦ (⟨commit output, none⟩ : Emission σ)).filterMap (Emission.sentBy source) = [] := by
    simp [List.filterMap_map, List.filterMap_eq_nil_iff, Emission.sentBy]
  cases event with
  | packet _ pkt => exact hdirect _ _
  | message _ senderRtid message =>
    simp only [emits, passes]
    rw [List.filterMap_append, hdirect, List.append_nil, List.filterMap_map]
    split
    · next heq => simp [Emission.sentBy, heq]
    · next hne => simp [List.filterMap_eq_nil_iff, Emission.sentBy, hne]
  | _ => rfl

def step (observed : Observed σ τ) (input : NetworkInput σ) : Option (Observed σ τ) :=
  (observed.net.event input).bind fun (rtid, event) ↦
    (observed.net.step input).map fun net ↦
      let rt := observed.net.runtimes rtid
      let rt' := net.runtimes rtid
      { net := net
        processed := update observed.processed rtid
          (observed.processed rtid ++ serves event rt rt')
        emitted := update observed.emitted rtid (observed.emitted rtid ++ emits event rt rt') }

def system (σ τ : Type) : TransitionSystem (Observed σ τ) (NetworkInput σ) where
  init observed := (Network.system σ τ).init observed.net ∧ (∀ rtid, observed.processed rtid = []) ∧
    ∀ rtid, observed.emitted rtid = []
  step := step

/-- All allocations of the two runtimes succeed. -/
def provides (observed : Observed σ τ) (source replica : UInt32) (input : NetworkInput σ) : Bool :=
  match observed.net.event input with
  | some (rtid, event) =>
    (rtid != source && rtid != replica) || (observed.net.runtimes rtid).ledger.provides event
  | none => true

end Observed

variable {rt rt' : Runtime σ τ} {ptr : ℕ} {env : Environment σ} {pkt : Packet}

/-- What a packet adds to the messages with flow states is the packet as processed. -/
theorem pktMsg_cargo (h : rt.pktMsg env ptr pkt = some rt') :
    rt'.cargo = rt.cargo ∨ (rt.actors ptr).currentState.processes = true ∧
      ∃ dest message inputHeader outputHeader states, rt'.cargo = rt.cargo ++ [(dest, message)] ∧
        message.body = .replication inputHeader outputHeader (rt.actors ptr).flowKey states
          (rt.processed ptr pkt) ∧
        Holding.load states 0 ((rt'.actors ptr).chain.map ChainSlot.nf) = rt'.flowStates ptr := by
  cases Runtime.pktMsg_takes h with
  | replicate dest hprocesses =>
    have hchain : ((rt.ran ptr pkt).actors ptr).chain = (rt.actors ptr).chain := by
      rw [Runtime.ran, Runtime.counted, Runtime.actors_modifyActor]
    have hstates := NfTable.load_saveChain (rt.ran ptr pkt).nfs (rt.actors ptr).chain env.staleStates
    rw [← hchain] at hstates
    rw [← hchain]
    cases env.sendOk
    · exact .inl rfl
    · exact .inr ⟨hprocesses, _, _, _, _, _, List.filter_append _ _, rfl, hstates⟩
  | _ => exact .inl rfl

/-- With a connected replica a packet goes to no output batch. -/
theorem pktMsg_silent (hreplica : (rt.actors ptr).replicationState = .haveReplica)
    (hconnection : env.replicaConnection = some true) (h : rt.pktMsg env ptr pkt = some rt') :
    rt'.ecSchedulerBatch = rt.ecSchedulerBatch ∧ rt'.gb = rt.gb := by
  cases Runtime.pktMsg_takes h with
  | emit _ _ hnone => exact absurd hreplica hnone
  | disconnect _ _ _ hdown => simp [hconnection] at hdown
  | _ => exact ⟨rfl, rfl⟩

/-- The commits that the messages to a runtime stand for. -/
def commits (serviceChain : List ℕ) (dest : UInt32) (cargo : List (UInt32 × Message σ)) :
    List (Commit σ) :=
  cargo.filterMap fun entry ↦ if entry.1 = dest then Commit.ofMessage serviceChain entry.2 else none

theorem carriesStates_of_ofMessage {serviceChain : List ℕ} {commit : Commit σ}
    (h : Commit.ofMessage serviceChain message = some commit) : message.body.carriesStates = true := by
  unfold Commit.ofMessage at h
  split at h
  · next hbody =>
    rw [hbody]
    rfl
  · cases h

/-- Only the messages with flow states count. -/
theorem filterMap_channel (net : Network σ τ) (source replica : UInt32) (serviceChain : List ℕ) :
    (net.channel source replica).filterMap (Commit.ofMessage serviceChain) =
      commits serviceChain replica (net.runtimes source).cargo := by
  rw [Network.channel, Runtime.cargo, commits, List.filterMap_filterMap, List.filterMap_filter]
  refine List.filterMap_congr fun entry _ ↦ ?_
  by_cases hdest : entry.1 = replica
  · rw [if_pos hdest, if_pos hdest, Option.bind_some]
    cases hcommit : Commit.ofMessage serviceChain entry.2 with
    | none => exact (ite_self _).symm
    | some => exact (if_pos (carriesStates_of_ofMessage hcommit)).symm
  · rw [if_neg hdest, if_neg hdest, ite_self]
    rfl

theorem commits_append (serviceChain : List ℕ) (dest : UInt32) (cargo sent : List (UInt32 × Message σ)) :
    commits serviceChain dest (cargo ++ sent) =
      commits serviceChain dest cargo ++ commits serviceChain dest sent :=
  List.filterMap_append

/-- Without a packet the cargo grows by at most the flow states of a migration. -/
theorem cargo_of_change {event : Input σ} {ledger' : Ledger} {contents' : Contents σ τ}
    (h : rt.Change event ledger' contents') (hevent : ∀ env pkt, event ≠ .packet env pkt) :
    contents'.cargo = rt.cargo ∨ ∃ dest message states, contents'.cargo = rt.cargo ++ [(dest, message)] ∧
      message.body = .migrateFlowState states := by
  cases h with
  | packet env pkt | newFlow env pkt => exact absurd rfl (hevent env pkt)
  | arrive => exact .inl ((Contents.fixed_replay _ _ _).1)
  | ship _ _ _ _ states => exact .inr ⟨_, _, states, rfl, rfl⟩
  | _ => exact .inl rfl

/-- The actor that has processed a packet is a flow actor with its chain. -/
theorem receiver_live (horderly : rt.ledger.Orderly) (hreceiver : rt.receiver env pkt = some (ptr, mid))
    (h : mid.pktMsg env ptr pkt = some rt') :
    mid.cargo = rt.cargo ∧ mid.ecSchedulerBatch = rt.ecSchedulerBatch ∧ mid.gb = rt.gb ∧
      rt'.ledger.Live ptr ∧ ptr ≠ deadendFlowActor := by
  have hblank : mid.ledger.DeadendBlank → ptr ≠ deadendFlowActor := by
    rintro hblank rfl
    exact absurd ((Runtime.pktMsg_deadend hblank env pkt).symm.trans h) (by simp)
  have hlive : mid.ledger.Live ptr → rt'.ledger.Live ptr := by
    rcases Runtime.pktMsg_spec h with hledger | ⟨-, hledger⟩ <;> rw [hledger] <;> exact id
  rcases Runtime.receiver_spec hreceiver with
    ⟨hptr, rfl⟩ | ⟨-, ⟨-, rfl, rfl⟩ | ⟨ring, inputRt, replication, r, -, -, hgrants, rfl, -⟩⟩
  · exact ⟨rfl, rfl, rfl, hlive (horderly.sound.flow_live _ _ hptr), hblank horderly.sound.blank⟩
  · exact absurd rfl (hblank horderly.sound.blank)
  · have hopened := Runtime.Opened.of_grants horderly hgrants
    exact ⟨congrArg Contents.cargo hopened.contents, hopened.ecSchedulerBatch, hopened.gb,
      hlive (hopened.live horderly.sound),
        hblank (hopened.sound horderly.sound (by simp [Runtime.packetOpening])).blank⟩

/-- What a step sends to a replica is what it has processed. -/
theorem commits_step {event : Input σ} (dest : UInt32) (horderly : rt.ledger.Orderly)
    (hfull : rt'.ledger.Full) (h : rt.step event = some rt') :
    ∃ extra, commits rt'.serviceChain dest rt'.cargo = commits rt'.serviceChain dest rt.cargo ++ extra ∧
      List.Sublist extra (Observed.serves event rt rt') := by
  have hsame : ∀ extra, rt'.cargo = rt.cargo ++ extra →
      List.Sublist (commits rt'.serviceChain dest extra) (Observed.serves event rt rt') →
      ∃ extra, commits rt'.serviceChain dest rt'.cargo = commits rt'.serviceChain dest rt.cargo ++ extra ∧
          List.Sublist extra (Observed.serves event rt rt') := by
    intro extra hcargo hextra
    refine ⟨_, ?_, hextra⟩
    rw [hcargo, commits_append]
  by_cases hpacket : ∃ env pkt, event = .packet env pkt
  · obtain ⟨env, pkt, rfl⟩ := hpacket
    have hschedule : rt.schedule env pkt = some rt' := h
    rw [Runtime.schedule_eq] at hschedule
    obtain ⟨⟨ptr, mid⟩, hreceiver, hpkt⟩ := Option.bind_eq_some_iff.1 hschedule
    dsimp only at hpkt
    obtain ⟨hcargo, -, -, hlive, hptr⟩ := receiver_live horderly hreceiver hpkt
    rcases pktMsg_cargo hpkt with hnothing |
      ⟨hprocesses, receiver, message, inputHeader, outputHeader, states, hsent, hbody, hstates⟩
    · refine hsame [] ?_ (List.nil_sublist _)
      rw [hnothing, hcargo, List.append_nil]
    · refine hsame [(receiver, message)] (hsent.trans (by rw [hcargo])) ?_
      have hchain : (rt'.actors ptr).chain.map ChainSlot.nf = rt'.serviceChain := hfull ptr hlive hptr
      rw [hchain] at hstates
      simp only [Observed.serves, served, hreceiver, hprocesses, if_true, commits,
        List.filterMap_cons, List.filterMap_nil, Commit.ofMessage, hbody, hstates]
      split
      · exact List.nil_sublist _
      · next hcommit =>
        split at hcommit
        · cases hcommit
          exact .refl _
        · cases hcommit
  · have hchange := Runtime.step_change horderly h
    rcases cargo_of_change hchange (fun env pkt heq ↦ hpacket ⟨env, pkt, heq⟩) with
      hcargo | ⟨receiver, message, states, hcargo, hbody⟩
    · exact hsame [] (hcargo.trans (List.append_nil _).symm) (List.nil_sublist _)
    · refine hsame _ hcargo ?_
      simp [commits, Commit.ofMessage, hbody]

/-! ## The replica -/

/-- A replica that takes over a message puts out its packet and holds its flow states. -/
theorem repFsPktMsg_passedOn {key : FlowKey} {states : ℕ → σ} {lost : ℕ → Multiset ℕ}
    (hslots : mid.ledger.SlotsAccounted lost) (hlive : mid.ledger.Live ptr) (hptr : ptr ≠ deadendFlowActor)
    (hkey : mid.htable key = some ptr) (hreplica : (mid.actors ptr).replicationState = .isReplica)
    (hfull : rt'.ledger.Full) (h : mid.repFsPktMsg ptr states pkt = some rt') :
    rt'.gb = mid.gb ++ [(pkt, 1)] ∧ rt'.htable key = some ptr ∧
      rt'.flowStates ptr = Holding.load states 0 rt'.serviceChain := by
  have hledger := Runtime.repFsPktMsg_spec h
  rcases Runtime.repFsPktMsg_contents hslots hlive h with ⟨hnot, -⟩ | ⟨-, hgb, hcontents⟩
  · exact absurd hreplica hnot
  have hlive' : rt'.ledger.Live ptr := hledger ▸ hlive
  have hcard : (rt'.actors ptr).chain = (mid.actors ptr).chain :=
    congrArg (fun ledger : Ledger ↦ (ledger.cards ptr).chain) hledger
  have hchain : (rt'.actors ptr).chain.map ChainSlot.nf = rt'.serviceChain := hfull ptr hlive' hptr
  refine ⟨hgb, (congrArg (fun ledger : Ledger ↦ ledger.htable key) hledger).trans hkey, ?_⟩
  rw [← Runtime.held_contents hlive', hcontents, Contents.held_put, ← hcard, hchain]

theorem passedOn_of_gb (hgb : rt'.gb = rt.gb) (commits : List (Commit σ)) :
    List.Sublist (passedOn rt message rt') commits := by
  unfold passedOn
  split
  · rw [hgb, List.drop_length]
    exact List.nil_sublist _
  · exact List.nil_sublist _

theorem passedOn_of_repFsPktMsg {lost : ℕ → Multiset ℕ} {inputHeader outputHeader : EtherHeader} {key : FlowKey}
    {states : ℕ → σ}
    (hbody : message.body = .replication inputHeader outputHeader key states pkt) (hfull : rt'.ledger.Full)
    (hgb : mid.gb = rt.gb) (hslots : mid.ledger.SlotsAccounted lost) (hlive : mid.ledger.Live ptr)
    (hblank : mid.ledger.DeadendBlank) (hkey : mid.htable key = some ptr)
    (hmid : mid.repFsPktMsg ptr states pkt = some rt') :
    List.Sublist (passedOn rt message rt') ([message].filterMap (Commit.ofMessage rt'.serviceChain)) := by
  by_cases hreplica : (mid.actors ptr).replicationState = .isReplica
  · have hptr : ptr ≠ deadendFlowActor := by
      rintro rfl
      exact absurd (hblank.replication.symm.trans hreplica) (by decide)
    obtain ⟨hout, hkey', hstates⟩ := repFsPktMsg_passedOn hslots hlive hptr hkey hreplica hfull hmid
    simp only [passedOn, hbody]
    rw [hout, hgb, List.drop_left, hkey']
    simp [Commit.ofMessage, hbody, hstates]
  · rw [Runtime.repFsPktMsg, if_pos hreplica] at hmid
    cases hmid
    exact passedOn_of_gb hgb _

/-- A replication message leads to at most one packet. -/
theorem passedOn_sublist {senderRtid : UInt32} (horderly : rt.ledger.Orderly) (hfull : rt'.ledger.Full)
    (h : rt.step (.message env senderRtid message) = some rt') :
    List.Sublist (passedOn rt message rt') ([message].filterMap (Commit.ofMessage rt'.serviceChain)) := by
  cases hbody : message.body with
  | replication =>
    obtain ⟨lost, hslots⟩ := horderly.slots
    cases Runtime.step_outcome h with
    | rest => exact passedOn_of_gb rfl _
    | mirror _ _ _ _ _ _ _ _ ptr _ _ hbody' hptr hrep =>
      exact passedOn_of_repFsPktMsg hbody' hfull rfl hslots (horderly.sound.flow_live _ _ hptr)
        horderly.sound.blank hptr hrep
    | bindDeadend _ _ _ _ _ key _ _ _ _ _ _ _ hrep =>
      have hreplica : ((rt.bind key deadendFlowActor).actors deadendFlowActor).replicationState = .noReplica :=
        horderly.sound.blank.replication
      rw [Runtime.repFsPktMsg, hreplica, if_pos (by decide)] at hrep
      cases hrep
      exact passedOn_of_gb rfl _
    | newFlow _ _ _ hgrants hopens =>
      have hopened := Runtime.Opened.of_grants horderly hgrants
      cases hopens with
      | target _ _ _ _ _ _ _ _ _ _ _ hbody' => cases hbody'.symm.trans hbody
      | replica _ _ _ _ _ _ _ _ _ _ _ _ _ _ hbody' _ _ hrep =>
        exact passedOn_of_repFsPktMsg hbody' hfull hopened.gb (hopened.slots horderly.sound hslots)
          (hopened.live horderly.sound)
          (hopened.sound horderly.sound (by simp [Runtime.replicaOpening])).blank hopened.htable hrep
    | tally _ _ htallies => cases htallies
    | abandon _ _ _ habandons =>
      cases habandons
      simp_all
    | ask _ _ _ _ _ hprepares => cases hprepares <;> simp_all
    | route _ _ _ _ _ _ _ _ _ hreroutes => cases hreroutes <;> simp_all
    | _ => simp_all
  | _ => simp [passedOn, hbody]

/-- What is on the way to the replica was processed, and what it has put out on messages of the source was
delivered. -/
structure Committed (observed : Observed σ τ) (source replica : UInt32) : Prop where
  orderly : ∀ rtid, (observed.net.runtimes rtid).ledger.Orderly
  full : ∀ rtid, rtid = source ∨ rtid = replica → (observed.net.runtimes rtid).ledger.Full
  sent : List.Sublist ((observed.net.channel source replica).filterMap
    (Commit.ofMessage (observed.net.runtimes source).serviceChain)) (observed.processed source)
  shown : List.Sublist ((observed.emitted replica).filterMap (Emission.sentBy source))
    ((observed.net.handed source replica).filterMap
      (Commit.ofMessage (observed.net.runtimes replica).serviceChain))

namespace Committed

variable {observed observed' : Observed σ τ} {source replica : UInt32} {net' : Network σ τ}

theorem init (h : (Observed.system σ τ).init observed) : Committed observed source replica := by
  obtain ⟨hnet, hprocessed, hemitted⟩ := h
  refine ⟨Network.orderly_init hnet, ?_, ?_, ?_⟩
  · intro rtid _
    obtain ⟨config, serviceChain, code, zero, sharedState, -, hrt⟩ := hnet.1 rtid
    rw [hrt]
    exact Runtime.full_boot config serviceChain code zero sharedState
  · obtain ⟨config, serviceChain, code, zero, sharedState, -, hrt⟩ := hnet.1 source
    rw [Network.channel, hrt]
    exact List.nil_sublist _
  · rw [hemitted]
    exact List.nil_sublist _

theorem sent_step {rtid : UInt32} {event : Input σ} {rt : Runtime σ τ} (h : Committed observed source replica)
    (hrt : (observed.net.runtimes rtid).step event = some rt)
    (hnet : net'.runtimes = update observed.net.runtimes rtid rt) (hfull : (net'.runtimes source).ledger.Full) :
    List.Sublist ((net'.channel source replica).filterMap
      (Commit.ofMessage (net'.runtimes source).serviceChain))
      (update observed.processed rtid (observed.processed rtid ++
        Observed.serves event (observed.net.runtimes rtid) (net'.runtimes rtid)) source) := by
  have hsent := h.sent
  rw [filterMap_channel] at hsent ⊢
  by_cases heq : source = rtid
  · subst heq
    have hchain := (Runtime.step_effect (h.orderly source).sound.blank event hrt).serviceChain
    rw [hnet, update_self] at hfull ⊢
    obtain ⟨extra, hcommits, hextra⟩ := commits_step replica (h.orderly source) hfull hrt
    have hsame : rt.serviceChain = (observed.net.runtimes source).serviceChain := hchain
    rw [update_self, hcommits, hsame]
    exact hsent.append hextra
  · rw [hnet, update_of_ne heq, update_of_ne heq]
    exact hsent

variable {input : NetworkInput σ}

theorem shown_step {rtid : UInt32} {event : Input σ} {rt : Runtime σ τ}
    (h : Committed observed source replica) (hevent : observed.net.event input = some (rtid, event))
    (hstep : observed.net.step input = some net') (hrt : (observed.net.runtimes rtid).step event = some rt)
    (hnet : net'.runtimes = update observed.net.runtimes rtid rt)
    (hfull : (net'.runtimes replica).ledger.Full) :
    List.Sublist ((update observed.emitted rtid (observed.emitted rtid ++
        Observed.emits event (observed.net.runtimes rtid) (net'.runtimes rtid)) replica).filterMap
          (Emission.sentBy source))
      ((net'.handed source replica).filterMap (Commit.ofMessage (net'.runtimes replica).serviceChain)) := by
  have hchain : (net'.runtimes replica).serviceChain = (observed.net.runtimes replica).serviceChain := by
    rw [hnet]
    by_cases heq : replica = rtid
    · rw [heq, update_self]
      exact (Runtime.step_effect (h.orderly rtid).sound.blank event hrt).serviceChain
    · rw [update_of_ne heq]
  have hold : List.Sublist ((observed.emitted replica).filterMap (Emission.sentBy source))
      ((net'.handed source replica).filterMap (Commit.ofMessage (net'.runtimes replica).serviceChain)) := by
    rw [hchain]
    exact h.shown.trans ((Network.handed_mono hstep source replica).sublist.filterMap _)
  by_cases heq : replica = rtid
  · subst heq
    rw [update_self, List.filterMap_append, Observed.filterMap_emits]
    unfold Observed.passes
    split
    · next env senderRtid message =>
      split
      · next hsender =>
        subst hsender
        have hhanded := (Network.handed_of_event hstep hevent).sublist.filterMap
          (Commit.ofMessage (net'.runtimes replica).serviceChain)
        rw [List.filterMap_append] at hhanded
        refine List.Sublist.trans ?_ hhanded
        rw [hnet, update_self] at hfull hchain ⊢
        have hpassed := passedOn_sublist (h.orderly replica) hfull hrt
        rw [hchain] at hpassed ⊢
        exact h.shown.append hpassed
      · rw [List.append_nil]
        exact hold
    · rw [List.append_nil]
      exact hold
  · rw [update_of_ne heq]
    exact hold

theorem step (h : Committed observed source replica) (hprovides : observed.provides source replica input = true)
    (hstep : observed.step input = some observed') : Committed observed' source replica := by
  obtain ⟨⟨rtid, event⟩, hevent, hnext⟩ := Option.bind_eq_some_iff.1 hstep
  obtain ⟨net', hnet, rfl⟩ := Option.map_eq_some_iff.1 hnext
  obtain ⟨rtid', event', rt, hevent', hrt, hruntimes⟩ := Network.step_spec hnet
  obtain ⟨rfl, rfl⟩ : rtid' = rtid ∧ event' = event := by
    have heq := hevent'.symm.trans hevent
    simpa using heq
  have hfull : ∀ rtid, rtid = source ∨ rtid = replica → (net'.runtimes rtid).ledger.Full := by
    refine @Network.runtimes_step σ τ observed.net net' input
      (fun rtid rt ↦ rtid = source ∨ rtid = replica → rt.ledger.Full) h.full hnet ?_
    intro rtid event rt hevent hrt hwho
    have hprovided : (observed.net.runtimes rtid).ledger.provides event = true := by
      rw [Observed.provides, hevent] at hprovides
      rcases hwho with rfl | rfl <;> simpa using hprovides
    exact (h.full rtid hwho).effect (h.orderly rtid).sound hprovided
      (Runtime.step_effect (h.orderly rtid).sound.blank event hrt)
  exact ⟨Network.orderly_step h.orderly hnet, hfull, h.sent_step hrt hruntimes (hfull source (.inl rfl)),
    h.shown_step hevent hnet hrt hruntimes (hfull replica (.inr rfl))⟩

end Committed

/-- A flow with a connected replica is not put out by the source. What the replica puts out on messages of the
source is in order and without duplicates, each packet with the flow states it had led to at the source. -/
theorem output_commit {observed : Observed σ τ} {source replica : UInt32}
    (hreach : (Observed.system σ τ).Reachable
      (fun observed input ↦ observed.provides source replica input = true) observed)
    (hchain : (observed.net.runtimes source).serviceChain =
      (observed.net.runtimes replica).serviceChain) :
    (∀ env pkt ptr mid rt', (observed.net.runtimes source).receiver env pkt = some (ptr, mid) →
      (mid.actors ptr).replicationState = .haveReplica → env.replicaConnection = some true →
      (observed.net.runtimes source).step (.packet env pkt) = some rt' →
        rt'.ecSchedulerBatch = (observed.net.runtimes source).ecSchedulerBatch ∧
          rt'.gb = (observed.net.runtimes source).gb) ∧
    ∀ key, List.Sublist
      (((observed.emitted replica).filterMap (Emission.sentBy source)).filter fun commit ↦ commit.key = key)
      ((observed.processed source).filter fun commit ↦ commit.key = key) := by
  have hcommitted : Committed observed source replica :=
    hreach.invariant (fun _ ↦ Committed.init) fun _ _ _ h hprovides hstep ↦ h.step hprovides hstep
  constructor
  · intro env pkt ptr mid rt' hreceiver hreplica hconnection hstep
    have hschedule : (observed.net.runtimes source).schedule env pkt = some rt' := hstep
    rw [Runtime.schedule_eq, hreceiver, Option.bind_some] at hschedule
    obtain ⟨-, hbatch, hgb, -, -⟩ := receiver_live (hcommitted.orderly source) hreceiver hschedule
    obtain ⟨hbatch', hgb'⟩ := pktMsg_silent hreplica hconnection hschedule
    exact ⟨hbatch'.trans hbatch, hgb'.trans hgb⟩
  · intro key
    have hhanded : List.Sublist (observed.net.handed source replica)
        (observed.net.channel source replica) := List.take_sublist _ _
    have hshown := hcommitted.shown
    rw [← hchain] at hshown
    exact ((hshown.trans (hhanded.filterMap _)).trans hcommitted.sent).filter _

/-- Every runtime counts the packets of its flows. -/
def countingNetwork : Observed UInt64 Unit where
  net :=
    { runtimes := fun rtid ↦ Runtime.boot ⟨rtid, 0x11, 0x12, 0x13⟩ [0] (fun _ ↦ pktCounter)
        (fun _ ↦ 0) (fun _ ↦ ())
      delivered := fun _ _ ↦ 0 }
  processed := fun _ ↦ []
  emitted := fun _ ↦ []

theorem init_countingNetwork : (Observed.system UInt64 Unit).init countingNetwork :=
  ⟨⟨fun _ ↦ ⟨_, _, _, _, _, rfl, rfl⟩, fun _ _ ↦ rfl⟩, fun _ ↦ rfl, fun _ ↦ rfl⟩

/-- All peers are connected, and new flows are replicated to runtime `2`. -/
def replicated : Environment UInt64 where
  reliables := fun _ ↦ some ⟨true, 0x21⟩
  macToReliables := fun _ ↦ some (some 3)
  replicaItem := some 2
  outputItem := none
  replicaConnection := some true
  sendOk := true
  secondSendOk := true
  staleStates := fun _ ↦ 0

open NfvActor.Actor.Runtime (tcpPacket)

/-- Between two packets of a flow its replica is idle and removed. -/
def idleReplica : List (NetworkInput UInt64) :=
  [.internal 2 (.addStorage 1),
    .internal 1 (.packet replicated (tcpPacket 7)),
    .deliver 1 2 replicated,
    .internal 2 (.fire replicated 1 .idle),
    .internal 2 (.fire replicated 1 .idle),
    .internal 1 (.packet replicated (tcpPacket 7)),
    .deliver 1 2 replicated]

/-- The replica puts out both packets, at the counts that the source had reached. -/
theorem output_commit_idleReplica : ∃ observed : Observed UInt64 Unit,
    (Observed.system UInt64 Unit).run countingNetwork idleReplica = some observed ∧
      ((observed.emitted 2).filterMap (Emission.sentBy 1)).map Commit.states = [[(0, 1)], [(0, 2)]] ∧
      ∀ key, List.Sublist
        (((observed.emitted 2).filterMap (Emission.sentBy 1)).filter fun commit ↦ commit.key = key)
        ((observed.processed 1).filter fun commit ↦ commit.key = key) := by
  obtain ⟨observed, hsteps, hstates, hchain⟩ : ∃ observed ∈ (Observed.system UInt64 Unit).runChecked
      (fun observed input ↦ observed.provides 1 2 input) countingNetwork idleReplica,
      ((observed.emitted 2).filterMap (Emission.sentBy 1)).map Commit.states = [[(0, 1)], [(0, 2)]] ∧
        (observed.net.runtimes 1).serviceChain = (observed.net.runtimes 2).serviceChain := by decide +kernel
  have hreach := TransitionSystem.Reachable.replayChecked init_countingNetwork hsteps
  exact ⟨observed, TransitionSystem.run_of_runChecked hsteps, hstates,
    (output_commit hreach hchain).2⟩

/-- The second packet of a flow reaches its replica and not the source. -/
def strayPacket : List (NetworkInput UInt64) :=
  [.internal 2 (.addStorage 1),
    .internal 1 (.packet replicated (tcpPacket 7)),
    .deliver 1 2 replicated,
    .internal 2 (.packet replicated (tcpPacket 7))]

/-- The replica processes the packet and puts it out, unseen by the source. -/
theorem stray_packet_emitted : ∃ observed : Observed UInt64 Unit,
    (Observed.system UInt64 Unit).Reachable (fun observed input ↦ observed.provides 1 2 input = true) observed ∧
      (observed.net.runtimes 1).serviceChain = (observed.net.runtimes 2).serviceChain ∧
      ((observed.net.runtimes 1).actors 1).replicationState = .haveReplica ∧
      ((observed.net.runtimes 2).actors 1).replicationState = .isReplica ∧
      (observed.emitted 2).map (fun emission ↦ emission.commit.states) = [[(0, 1)], [(0, 2)]] ∧
      ¬∀ key, List.Sublist
        (((observed.emitted 2).map Emission.commit).filter fun commit ↦ commit.key = key)
        ((observed.processed 1).filter fun commit ↦ commit.key = key) := by
  obtain ⟨observed, hsteps, hchain, hhas, his, hstates, hemitted, hprocessed⟩ :
      ∃ observed ∈ (Observed.system UInt64 Unit).runChecked
        (fun observed input ↦ observed.provides 1 2 input) countingNetwork strayPacket,
      (observed.net.runtimes 1).serviceChain = (observed.net.runtimes 2).serviceChain ∧
        ((observed.net.runtimes 1).actors 1).replicationState = .haveReplica ∧
        ((observed.net.runtimes 2).actors 1).replicationState = .isReplica ∧
        (observed.emitted 2).map (fun emission ↦ emission.commit.states) = [[(0, 1)], [(0, 2)]] ∧
        ((observed.emitted 2).map Emission.commit).countP (fun commit ↦ commit.key = flowKeyOf (tcpPacket 7)) = 2 ∧
        (observed.processed 1).countP (fun commit ↦ commit.key = flowKeyOf (tcpPacket 7)) = 1 := by
    decide +kernel
  refine ⟨observed, .replayChecked init_countingNetwork hsteps, hchain, hhas, his, hstates, fun hall ↦ ?_⟩
  have hle := (hall (flowKeyOf (tcpPacket 7))).length_le
  rw [← List.countP_eq_length_filter, ← List.countP_eq_length_filter, hemitted, hprocessed] at hle
  exact absurd hle (by decide)

end NfvActor.Replication
