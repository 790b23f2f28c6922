import Mathlib.Tactic
import NfvActor.Actor.FlowTables
import NfvActor.Actor.StateSlots
import NfvActor.Migration.Shipping

/-!
# A network of runtimes

Runtimes talk over reliable channels, one for each ordered pair, while timers fire and packets arrive at any
moment. Once a flow state has been delivered, the actor that sent it does not process packets any more, as long
as it does not take the flow back because the answer is late.
-/

namespace NfvActor.Migration

open NfvActor.Foundation
open NfvActor.Actor
open Function
open Option (bind_eq_some_iff map_eq_some_iff)

/-- The runtimes by id, and how many messages of each channel were delivered. -/
structure Network (σ τ : Type) where
  runtimes : UInt32 → Runtime σ τ
  delivered : UInt32 → UInt32 → ℕ

/-- A runtime takes a step, or the next message of a channel is delivered. -/
inductive NetworkInput (σ : Type)
  | internal (rtid : UInt32) (input : Input σ)
  | deliver (sender receiver : UInt32) (env : Environment σ)

namespace Network

variable {σ τ : Type}

/-- Everything one runtime has sent to another. -/
def channel (net : Network σ τ) (sender receiver : UInt32) : List (Message σ) :=
  (net.runtimes sender).outbox.filterMap fun entry ↦ if entry.1 = receiver then some entry.2 else none

/-- The messages of a channel that have been delivered. -/
def handed (net : Network σ τ) (sender receiver : UInt32) : List (Message σ) :=
  (net.channel sender receiver).take (net.delivered sender receiver)

/-- The runtime that steps, and its input. Messages come from channels only. -/
def event (net : Network σ τ) : NetworkInput σ → Option (UInt32 × Input σ)
  | .internal _ (.message _ _ _) => none
  | .internal rtid input => some (rtid, input)
  | .deliver sender receiver env =>
    (net.channel sender receiver)[net.delivered sender receiver]?.map fun message ↦
      (receiver, .message env sender message)

def advance (net : Network σ τ) : NetworkInput σ → UInt32 → UInt32 → ℕ
  | .internal _ _ => net.delivered
  | .deliver sender receiver _ => update net.delivered sender
      (update (net.delivered sender) receiver (net.delivered sender receiver + 1))

def step (net : Network σ τ) (input : NetworkInput σ) : Option (Network σ τ) :=
  (net.event input).bind fun (rtid, event) ↦
    ((net.runtimes rtid).step event).map fun rt ↦
      { runtimes := update net.runtimes rtid rt, delivered := net.advance input }

/-- Every runtime has just been booted under its id, and nothing was delivered. -/
def system (σ τ : Type) : TransitionSystem (Network σ τ) (NetworkInput σ) where
  init net := (∀ rtid, ∃ config serviceChain code zero sharedState, config.runtimeId = rtid ∧
    net.runtimes rtid = Runtime.boot config serviceChain code zero sharedState) ∧
      ∀ sender receiver, net.delivered sender receiver = 0
  step := step

/-- The messages for one receiver. -/
def addressed (receiver : UInt32) (entries : List (UInt32 × Message σ)) : List (Message σ) :=
  entries.filterMap fun entry ↦ if entry.1 = receiver then some entry.2 else none

variable {receiver sender : UInt32} {message : Message σ} {net net' : Network σ τ} {input : NetworkInput σ}

theorem mem_addressed {entries : List (UInt32 × Message σ)} :
    message ∈ addressed receiver entries ↔ (receiver, message) ∈ entries := by
  simp only [addressed, List.mem_filterMap]
  constructor
  · rintro ⟨⟨dest, sent⟩, hmem, hsome⟩
    split at hsome
    · next hdest =>
      rw [← hdest, ← Option.some.inj hsome]
      exact hmem
    · cases hsome
  · exact fun hmem ↦ ⟨_, hmem, if_pos rfl⟩

theorem mem_channel :
    message ∈ net.channel sender receiver ↔ (receiver, message) ∈ (net.runtimes sender).outbox :=
  mem_addressed

theorem sent_of_handed (h : message ∈ net.handed sender receiver) :
    (receiver, message) ∈ (net.runtimes sender).outbox :=
  mem_channel.1 (List.mem_of_mem_take h)

/-- A runtime receives the next message of a channel. -/
theorem deliver_of_event {rtid : UInt32} {env : Environment σ}
    (h : net.event input = some (rtid, .message env sender message)) : input = .deliver sender rtid env ∧
      (net.channel sender rtid)[net.delivered sender rtid]? = some message := by
  cases input with
  | internal _ input => cases input <;> simp [event] at h
  | deliver =>
    obtain ⟨message', hget, heq⟩ := map_eq_some_iff.1 h
    simp only [Prod.mk.injEq, Input.message.injEq] at heq
    obtain ⟨rfl, rfl, rfl, rfl⟩ := heq
    exact ⟨rfl, hget⟩

theorem sent_of_event {rtid : UInt32} {env : Environment σ}
    (h : net.event input = some (rtid, .message env sender message)) :
    (rtid, message) ∈ (net.runtimes sender).outbox :=
  mem_channel.1 (List.mem_of_getElem? (deliver_of_event h).2)

/-- One runtime steps and the others stay as they are. -/
theorem step_spec (h : net.step input = some net') : ∃ rtid event rt, net.event input = some (rtid, event) ∧
      (net.runtimes rtid).step event = some rt ∧ net'.runtimes = update net.runtimes rtid rt := by
  obtain ⟨⟨rtid, event⟩, hevent, hstep⟩ := bind_eq_some_iff.1 h
  obtain ⟨rt, hrt, rfl⟩ := map_eq_some_iff.1 hstep
  exact ⟨rtid, event, rt, hevent, hrt, rfl⟩

theorem delivered_step (h : net.step input = some net') : net'.delivered = net.advance input := by
  obtain ⟨⟨rtid, event⟩, -, hstep⟩ := bind_eq_some_iff.1 h
  obtain ⟨rt, -, rfl⟩ := map_eq_some_iff.1 hstep
  rfl

/-- What holds of every runtime and is kept by the one that steps. -/
theorem runtimes_step {inv : UInt32 → Runtime σ τ → Prop} (h : ∀ rtid, inv rtid (net.runtimes rtid))
    (hstep : net.step input = some net')
    (hkeeps : ∀ rtid event rt, net.event input = some (rtid, event) →
      (net.runtimes rtid).step event = some rt → inv rtid rt) :
      ∀ rtid, inv rtid (net'.runtimes rtid) := by
  obtain ⟨rtid, event, rt, hevent, hrt, hnet⟩ := step_spec hstep
  intro other
  rw [hnet]
  by_cases heq : other = rtid
  · rw [heq, update_self]
    exact hkeeps rtid event rt hevent hrt
  · rw [update_of_ne heq]
    exact h other

theorem orderly_init (h : (system σ τ).init net) (rtid : UInt32) : (net.runtimes rtid).ledger.Orderly := by
  obtain ⟨config, serviceChain, code, zero, sharedState, -, hrt⟩ := h.1 rtid
  rw [hrt]
  exact Runtime.orderly_boot config serviceChain code zero sharedState

theorem orderly_step (h : ∀ rtid, (net.runtimes rtid).ledger.Orderly) (hstep : net.step input = some net') :
    ∀ rtid, (net'.runtimes rtid).ledger.Orderly :=
  runtimes_step h hstep fun rtid event _ _ hrt ↦
    (h rtid).effect (Runtime.step_effect (h rtid).sound.blank event hrt)

variable (hstep : net.step input = some net')

include hstep

theorem outbox_mono (sender : UInt32) : (net.runtimes sender).outbox <+: (net'.runtimes sender).outbox := by
  refine @runtimes_step σ τ net net' input (fun rtid rt ↦ (net.runtimes rtid).outbox <+: rt.outbox)
    (fun _ ↦ List.prefix_rfl) hstep ?_ sender
  intro rtid event rt _ hrt
  rcases (Runtime.step_traffic event hrt).sent with hsame | ⟨dest, message, hsent, -⟩
  · rw [hsame]
  · rw [hsent]
    exact List.prefix_append _ _

theorem channel_mono (sender receiver : UInt32) :
    net.channel sender receiver <+: net'.channel sender receiver :=
  (outbox_mono hstep sender).filterMap _

/-- A message in an outbox was there before, or is sent in the step. -/
theorem sent_cases (hmem : (receiver, message) ∈ (net'.runtimes sender).outbox) :
    (receiver, message) ∈ (net.runtimes sender).outbox ∨ ∃ event, net.event input = some (sender, event) ∧
      (net.runtimes sender).Cause event (net'.runtimes sender) receiver message := by
  obtain ⟨rtid, event, rt, hevent, hrt, hnet⟩ := step_spec hstep
  rw [hnet] at hmem ⊢
  by_cases heq : sender = rtid
  · subst heq
    rw [update_self] at hmem ⊢
    exact ((Runtime.step_traffic event hrt).sent_cases hmem).imp_right fun hsent ↦ ⟨event, hevent, hsent.2⟩
  · rw [update_of_ne heq] at hmem
    exact .inl hmem

theorem delivered_mono (sender receiver : UInt32) :
    net.delivered sender receiver ≤ net'.delivered sender receiver := by
  rw [delivered_step hstep]
  cases input with
  | internal => exact le_rfl
  | deliver =>
    simp only [advance, update_apply]
    split
    · next hsender =>
      rw [hsender, update_apply]
      split
      · next hreceiver =>
        rw [hreceiver]
        exact Nat.le_succ _
      · exact le_rfl
    · exact le_rfl

theorem handed_mono (sender receiver : UInt32) : net.handed sender receiver <+: net'.handed sender receiver :=
  ((channel_mono hstep sender receiver).take _).trans
    (List.take_prefix_take_left (delivered_mono hstep sender receiver))

theorem handed_of_event {env : Environment σ}
    (h : net.event input = some (receiver, .message env sender message)) :
    net.handed sender receiver ++ [message] <+: net'.handed sender receiver := by
  obtain ⟨rfl, hget⟩ := deliver_of_event h
  have hdelivered : net'.delivered sender receiver = net.delivered sender receiver + 1 := by
    rw [delivered_step hstep, advance, update_self, update_self]
  have hnext : net.handed sender receiver ++ [message] =
      (net.channel sender receiver).take (net'.delivered sender receiver) := by
    rw [hdelivered, List.take_add_one, hget]
    rfl
  rw [hnext]
  exact (channel_mono hstep sender receiver).take _

omit hstep

/-! ## The source of a migration -/

/-- A step that spares the actor, and in which no counter of the source passes zero. -/
def permits (net : Network σ τ) (source id : UInt32) (input : NetworkInput σ) : Bool :=
  (net.event input).all fun (rtid, event) ↦
    let rt := net.runtimes source
    rtid != source || rt.messageIdsHold event && rt.ledger.actorIdsHold event && rt.ledger.spares id event

/-- What the source knows of its requests, and what others answer. -/
structure Consistent (net : Network σ τ) (source id : UInt32) : Prop where
  sound : (net.runtimes source).ledger.Sound
  ids : (net.runtimes source).ledger.IdsFresh
  numbered : (net.runtimes source).Numbered
  shipped : (net.runtimes source).Shipped id
  replies : ∀ rtid message round requestMsgId, (source, message) ∈ (net.runtimes rtid).outbox →
    message.body.closes = some (round, requestMsgId) →
      ∃ request, (rtid, request) ∈ (net.runtimes source).outbox ∧
        request.body.opens = some round ∧ request.msgId = requestMsgId

namespace Consistent

variable {net net' : Network σ τ} {source id : UInt32}

theorem init (h : (system σ τ).init net) : net.Consistent source id := by
  have hboot : ∀ rtid, ∃ config serviceChain code zero sharedState,
      net.runtimes rtid = Runtime.boot config serviceChain code zero sharedState := by
    intro rtid
    obtain ⟨config, serviceChain, code, zero, sharedState, -, hrt⟩ := h.1 rtid
    exact ⟨config, serviceChain, code, zero, sharedState, hrt⟩
  have hempty : ∀ rtid entry, entry ∉ (net.runtimes rtid).outbox := by
    intro rtid entry
    obtain ⟨config, serviceChain, code, zero, sharedState, hrt⟩ := hboot rtid
    rw [hrt]
    exact List.not_mem_nil
  obtain ⟨config, serviceChain, code, zero, sharedState, hrt⟩ := hboot source
  refine ⟨?_, ?_, ⟨?_, ?_⟩, ?_, ?_⟩
  · rw [hrt]
    exact Runtime.sound_boot config serviceChain code zero sharedState
  · rw [hrt]
    exact Runtime.idsFresh_boot config serviceChain code zero sharedState
  · intro dest message round hmem
    exact absurd hmem (hempty source _)
  · intro dest message round dest' message' round' hmem
    exact absurd hmem (hempty source _)
  · intro dest message hmem
    exact absurd hmem (hempty source _)
  · intro rtid message round requestMsgId hmem
    exact absurd hmem (hempty rtid _)

variable {input : NetworkInput σ}

variable (h : net.Consistent source id)

include h

/-- An answer to the source closes the round of the request it names. -/
theorem round_of_reply {env : Environment σ} {sender dest : UInt32} {message request : Message σ}
    {round round' : Round} (hevent : net.event input = some (source, .message env sender message))
    (hrequest : (dest, request) ∈ (net.runtimes source).outbox) (hopens : request.body.opens = some round')
    (hcloses : message.body.closes = some (round, request.msgId)) : round = round' := by
  obtain ⟨named, hnamed, hround, hid⟩ := h.replies sender message round request.msgId
    (sent_of_event hevent) hcloses
  exact h.numbered.round sender named round dest request round' hnamed hround hrequest hopens hid

theorem replies_step (hstep : net.step input = some net') {rtid : UInt32} {message : Message σ} {round : Round}
    {requestMsgId : UInt32} (hmem : (source, message) ∈ (net'.runtimes rtid).outbox)
    (hcloses : message.body.closes = some (round, requestMsgId)) :
    ∃ request, (rtid, request) ∈ (net'.runtimes source).outbox ∧ request.body.opens = some round ∧
      request.msgId = requestMsgId := by
  have hmono := (outbox_mono hstep source).subset
  rcases sent_cases hstep hmem with hold | ⟨event, hevent, hcause⟩
  · obtain ⟨request, hrequest, hrest⟩ := h.replies rtid message round requestMsgId hold hcloses
    exact ⟨request, hmono hrequest, hrest⟩
  · cases hcause with
    | plain _ hnone => cases hnone.symm.trans hcloses
    | request _ hopens | ship _ _ hopens =>
      exact absurd ((MessageBody.closes_of_opens hopens).symm.trans hcloses) (by simp)
    | recovered _ _ _ _ _ _ _ hbody =>
      rw [hbody] at hcloses
      exact absurd hcloses (by simp [MessageBody.closes])
    | reply _ request _ hinput hopens _ hcloses' =>
      rw [hcloses, Option.some.injEq, Prod.mk.injEq] at hcloses'
      obtain ⟨rfl, rfl⟩ := hcloses'
      rw [hinput] at hevent
      exact ⟨request, hmono (sent_of_event hevent), hopens, rfl⟩

theorem step (hpermits : net.permits source id input = true) (hstep : net.step input = some net') :
    net'.Consistent source id := by
  obtain ⟨rtid, event, rt, hevent, hrt, hnet⟩ := step_spec hstep
  by_cases heq : source = rtid
  · subst heq
    simp only [permits, hevent, Option.all_some, bne_self_eq_false, Bool.false_or, Bool.and_eq_true] at hpermits
    obtain ⟨⟨hmsgIds, hactorIds⟩, hspares⟩ := hpermits
    have heffect := Runtime.step_effect h.sound.blank event hrt
    have hsource : net'.runtimes source = rt := by
      rw [hnet, update_self]
    refine ⟨?_, ?_, ?_, ?_, fun _ _ _ _ ↦ h.replies_step hstep⟩ <;> rw [hsource]
    · exact h.sound.effect heffect
    · exact (h.ids.effect h.sound hactorIds heffect).1
    · exact h.numbered.step (Runtime.step_traffic event hrt) (Runtime.idBound_mono hmsgIds hrt)
    · refine h.shipped.step h.sound h.ids hactorIds hspares ?_ hrt
      intro dest shipped env sender message round hmem hopens hinput hcloses
      rw [hinput] at hevent
      exact h.round_of_reply hevent hmem hopens hcloses
  · have hsource : net'.runtimes source = net.runtimes source := by
      rw [hnet, update_of_ne heq]
    refine ⟨?_, ?_, ?_, ?_, fun _ _ _ _ ↦ h.replies_step hstep⟩ <;> rw [hsource]
    · exact h.sound
    · exact h.ids
    · exact h.numbered
    · exact h.shipped

omit h

theorem of_reachable (hreach : (system σ τ).Reachable (fun net input ↦ net.permits source id input = true) net) :
    net.Consistent source id :=
  hreach.invariant (fun _ ↦ init) fun _ _ _ h hpermits hstep ↦ h.step hpermits hstep

end Consistent

/-- The actor does not process packets normally, and no packet for it changes a network function. -/
def OutOfService (rt : Runtime σ τ) (ptr : ℕ) : Prop :=
  (rt.actors ptr).currentState ≠ .normalProcessing ∧
    ∀ env pkt rt', rt.pktMsg env ptr pkt = some rt' → rt'.nfs = rt.nfs

/-- Once a flow state has been delivered, its sender stays out of service until it is removed, in every
run that spares it. -/
theorem migration_never_splits {net : Network σ τ} {source target id : UInt32} {message : Message σ}
    {states : ℕ → σ} (hreach : (system σ τ).Reachable (fun net input ↦ net.permits source id input = true) net)
    (hmem : message ∈ net.handed source target) (hbody : message.body = .migrateFlowState states)
    (hid : message.sendActorId = id) (ptr : ℕ) (hptr : (net.runtimes source).Allocated ptr)
    (hactor : ((net.runtimes source).actors ptr).actorId = id) :
    OutOfService (net.runtimes source) ptr := by
  have hopens : message.body.opens = some .shipState := by
    rw [hbody]
    rfl
  obtain ⟨-, hshipping⟩ :=
    (Consistent.of_reachable hreach).shipped target message (sent_of_handed hmem) hopens hid
  have hstate : ((net.runtimes source).actors ptr).currentState = .afterRouteChange :=
    (hshipping ptr hptr hactor).1
  constructor
  · rw [hstate]
    decide
  · intro env pkt rt' hpkt
    exact Runtime.nfs_pktMsg_afterRouteChange hstate hpkt

/-- Every runtime has a chain of one pass-through function. -/
def smallNetwork : Network Unit Unit where
  runtimes := fun rtid ↦ Runtime.boot ⟨rtid, 0x11, 0x12, 0x13⟩ [0] (fun _ ↦ Runtime.passThrough)
    (fun _ ↦ ()) (fun _ ↦ ())
  delivered := fun _ _ ↦ 0

theorem init_smallNetwork : (system Unit Unit).init smallNetwork :=
  ⟨fun _ ↦ ⟨_, _, _, _, _, rfl, rfl⟩, fun _ _ ↦ rfl⟩

open NfvActor.Actor.Runtime (connected tcpPacket)

/-- The flow enters through runtime `3` and is handed from runtime `1` to runtime `2`. -/
def handover : List (NetworkInput Unit) :=
  [.internal 3 (.packet connected (tcpPacket 7)),
    .internal 1 (.packet connected (tcpPacket 7)),
    .internal 1 (.migrateTo 1 2),
    .internal 1 (.migrationIteration connected),
    .deliver 1 2 connected,
    .deliver 2 1 connected,
    .deliver 1 3 connected,
    .deliver 3 1 connected,
    .deliver 1 2 connected]

/-- The answer to the flow state is late: the source times out and takes the route back. -/
def rollback : List (NetworkInput Unit) :=
  [.internal 1 (.fire connected 1 .migration),
    .deliver 1 3 connected,
    .deliver 3 1 connected]

/-- After the handover the actor of runtime `1` is still there, out of service. -/
theorem migration_never_splits_handover : ∃ net : Network Unit Unit,
    (system Unit Unit).run smallNetwork handover = some net ∧
      (net.runtimes 1).Allocated 1 ∧ ((net.runtimes 2).actors 1).currentState = .normalProcessing ∧
      OutOfService (net.runtimes 1) 1 := by
  obtain ⟨net, hsteps, hentry, htarget, hactor, message, hmem, hsender, hopens⟩ :
      ∃ net ∈ (system Unit Unit).runChecked (fun net input ↦ net.permits 1 3 input) smallNetwork handover,
        (net.runtimes 1).actoridHtable 3 = some 1 ∧
          ((net.runtimes 2).actors 1).currentState = .normalProcessing ∧
          ((net.runtimes 1).actors 1).actorId = 3 ∧
          ∃ message ∈ net.handed 1 2, message.sendActorId = 3 ∧ message.body.opens = some .shipState := by
    decide +kernel
  have hreach := TransitionSystem.Reachable.replayChecked init_smallNetwork hsteps
  have hptr : (net.runtimes 1).Allocated 1 := (Consistent.of_reachable hreach).sound.id_live 3 1 hentry
  obtain ⟨states, hbody⟩ := MessageBody.of_opens_shipState hopens
  exact ⟨net, TransitionSystem.run_of_runChecked hsteps, hptr, htarget,
    migration_never_splits hreach hmem hbody hsender 1 hptr hactor⟩

/-- The source times out after the handover: both actors process packets. -/
theorem flow_split_by_late_answer : ∃ net net' : Network Unit Unit,
    (system Unit Unit).run smallNetwork handover = some net ∧
      ((net.runtimes 1).actors 1).currentState = .afterRouteChange ∧
      ((net.runtimes 2).actors 1).currentState = .normalProcessing ∧
      (system Unit Unit).run net rollback = some net' ∧
      (net'.runtimes 1).actoridHtable ((net.runtimes 1).actors 1).actorId = some 1 ∧
      ((net'.runtimes 1).actors 1).currentState = .normalProcessing ∧
      ((net'.runtimes 2).actors 1).currentState = .normalProcessing ∧
      ((net'.runtimes 1).actors 1).flowKey = ((net'.runtimes 2).actors 1).flowKey := by
  exact ⟨_, _, rfl, rfl, rfl, rfl, rfl, rfl, rfl, by decide +kernel⟩

end Network

end NfvActor.Migration
