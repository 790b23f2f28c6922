import Mathlib.Tactic
import NfvActor.Actor.Buffers
import NfvActor.Actor.Verdicts

/-!
# The giant batch

`gb_` collects the packets that the messages of a control batch release: fifty batches and one array of gates,
with a cursor for each. The runtime keeps the list of packets with their gates; here the cursors are followed as
well, and a message is compared with its handling on an empty giant batch.
-/

namespace NfvActor.Actor

open NfvActor.Foundation
open NfvActor.Reliable (Packet kMaxBurst)
open Function

def bufferBatchSize : ℕ := 50

/-- `giant_batch`; a batch is the part of `pkts_` below its count. -/
structure GiantBatch where
  batches : ℕ → List Packet
  gates : ℕ → UInt16
  batchPos : ℕ
  gatePos : ℕ

namespace GiantBatch

def clear (gb : GiantBatch) : GiantBatch :=
  { gb with batches := update gb.batches 0 [], batchPos := 0, gatePos := 0 }

/-- The gate and the packet are written. -/
def put (gb : GiantBatch) (pkt : Packet) (gate : UInt16) : GiantBatch where
  batches := update gb.batches gb.batchPos (gb.batches gb.batchPos ++ [pkt])
  gates := update gb.gates gb.gatePos gate
  batchPos := gb.batchPos
  gatePos := gb.gatePos + 1

def nextBatch (gb : GiantBatch) : GiantBatch :=
  { gb with batches := update gb.batches (gb.batchPos + 1) [], batchPos := gb.batchPos + 1 }

/-- A full batch is left unless it is the last one. -/
def addPktSetGate (gb : GiantBatch) (pkt : Packet) (gate : UInt16) : Option GiantBatch :=
  if gb.gatePos < kMaxBurst * bufferBatchSize ∧ (gb.batches gb.batchPos).length < kMaxBurst then
    if ((gb.put pkt gate).batches gb.batchPos).length = kMaxBurst ∧ gb.batchPos < bufferBatchSize - 1 then
      some (gb.put pkt gate).nextBatch
    else
      some (gb.put pkt gate)
  else
    none

def addAll : List (Packet × UInt16) → GiantBatch → Option GiantBatch
  | [], gb => some gb
  | entry :: rest, gb => (gb.addPktSetGate entry.1 entry.2).bind (addAll rest)

/-- `RunSplit(get_gate(pos), get_batch(pos))`. -/
def runSplit (gb : GiantBatch) (pos : ℕ) : List (Packet × UInt16) :=
  (gb.batches pos).mapIdx fun offset pkt ↦ (pkt, gb.gates (pos * kMaxBurst + offset))

/-- What `ProcessBatch` passes on at its end. -/
def passed (gb : GiantBatch) : List (Packet × UInt16) :=
  (List.range gb.batchPos).flatMap gb.runSplit ++
    if 0 < (gb.batches gb.batchPos).length then gb.runSplit gb.batchPos else []

/-- All batches before the current one are full, and there is a gate for each packet. -/
structure Fills (gb : GiantBatch) (entries : List (Packet × UInt16)) : Prop where
  pos_lt : gb.batchPos < bufferBatchSize
  full : ∀ pos < gb.batchPos, (gb.batches pos).length = kMaxBurst
  last_le : (gb.batches gb.batchPos).length ≤ kMaxBurst
  gatePos : gb.gatePos = gb.batchPos * kMaxBurst + (gb.batches gb.batchPos).length
  passed : (List.range gb.batchPos).flatMap gb.runSplit ++ gb.runSplit gb.batchPos = entries

/-- Only the last of the fifty batches is current when it is full. -/
structure Holds (gb : GiantBatch) (entries : List (Packet × UInt16)) : Prop extends gb.Fills entries where
  last_full : (gb.batches gb.batchPos).length = kMaxBurst → gb.batchPos = bufferBatchSize - 1

variable {gb gb' : GiantBatch} {entries : List (Packet × UInt16)}

theorem length_runSplit (gb : GiantBatch) (pos : ℕ) : (gb.runSplit pos).length = (gb.batches pos).length :=
  List.length_mapIdx

theorem Fills.passed_eq (h : gb.Fills entries) : gb.passed = entries := by
  rw [← h.passed, GiantBatch.passed]
  split
  · rfl
  · next hempty =>
    have hnil : gb.runSplit gb.batchPos = [] := by
      rw [← List.length_eq_zero_iff, length_runSplit]
      omega
    rw [hnil]

theorem Fills.length (h : gb.Fills entries) : gb.gatePos = entries.length := by
  have hfull : ∀ count ≤ gb.batchPos, ((List.range count).flatMap gb.runSplit).length = count * kMaxBurst := by
    intro count hcount
    induction count with
    | zero => rw [Nat.zero_mul]; rfl
    | succ count ih =>
      rw [List.range_succ, List.flatMap_append, List.length_append, ih (by omega), List.flatMap_singleton,
        length_runSplit, h.full count (by omega), Nat.succ_mul]
  rw [h.gatePos, ← h.passed, List.length_append, hfull _ le_rfl, length_runSplit]

theorem holds_clear (gb : GiantBatch) : gb.clear.Holds [] := by
  have hempty : gb.clear.batches gb.clear.batchPos = [] := by simp [clear]
  refine ⟨⟨(by decide : 0 < bufferBatchSize), ?_, ?_, ?_, ?_⟩, ?_⟩
  · exact fun pos hpos ↦ absurd hpos (Nat.not_lt_zero pos)
  · rw [hempty]
    exact Nat.zero_le _
  · rw [hempty]
    rfl
  · rw [runSplit, hempty]
    rfl
  · rw [hempty]
    exact fun hfull ↦ absurd hfull (by decide)

theorem runSplit_congr {pos : ℕ} (hbatch : gb'.batches pos = gb.batches pos)
    (hgates : ∀ offset < (gb.batches pos).length,
      gb'.gates (pos * kMaxBurst + offset) = gb.gates (pos * kMaxBurst + offset)) :
    gb'.runSplit pos = gb.runSplit pos := by
  rw [runSplit, runSplit, hbatch, List.mapIdx_eq_mapIdx_iff]
  intro offset hoffset
  rw [hgates offset hoffset]

theorem Fills.put (h : gb.Fills entries) (hlast : (gb.batches gb.batchPos).length < kMaxBurst) (pkt : Packet)
    (gate : UInt16) : (gb.put pkt gate).Fills (entries ++ [(pkt, gate)]) := by
  have hgate := h.gatePos
  have hbatch : (gb.put pkt gate).batches gb.batchPos = gb.batches gb.batchPos ++ [pkt] := update_self ..
  have hlength : ((gb.put pkt gate).batches gb.batchPos).length = (gb.batches gb.batchPos).length + 1 := by
    rw [hbatch, List.length_append]
    rfl
  have hgates : ∀ index < gb.gatePos, (gb.put pkt gate).gates index = gb.gates index :=
    fun index hindex ↦ update_of_ne hindex.ne _ _
  have hbefore : ∀ pos < gb.batchPos, (gb.put pkt gate).runSplit pos = gb.runSplit pos := by
    intro pos hpos
    apply runSplit_congr (update_of_ne hpos.ne _ _)
    intro offset hoffset
    apply hgates
    rw [h.full pos hpos] at hoffset
    have hle := Nat.mul_le_mul_right kMaxBurst (Nat.succ_le_of_lt hpos)
    rw [Nat.succ_mul] at hle
    omega
  have hnow : (gb.put pkt gate).runSplit gb.batchPos = gb.runSplit gb.batchPos ++ [(pkt, gate)] := by
    have hnew : (gb.put pkt gate).gates gb.gatePos = gate := update_self ..
    rw [runSplit, hbatch, List.mapIdx_concat, ← hgate, hnew, runSplit]
    congr 1
    rw [List.mapIdx_eq_mapIdx_iff]
    intro offset hoffset
    rw [hgates _ (by omega)]
  constructor
  · exact h.pos_lt
  · intro pos hpos
    have hsame : (gb.put pkt gate).batches pos = gb.batches pos := update_of_ne hpos.ne _ _
    rw [hsame, h.full pos hpos]
  · exact hlength.trans_le hlast
  · change gb.gatePos + 1 = gb.batchPos * kMaxBurst + ((gb.put pkt gate).batches gb.batchPos).length
    rw [hlength, hgate, Nat.add_assoc]
  · calc (List.range gb.batchPos).flatMap (gb.put pkt gate).runSplit ++ (gb.put pkt gate).runSplit gb.batchPos
        = (List.range gb.batchPos).flatMap gb.runSplit ++ (gb.runSplit gb.batchPos ++ [(pkt, gate)]) := by
          rw [hnow, List.flatMap_congr fun pos hpos ↦ hbefore pos (List.mem_range.1 hpos)]
      _ = entries ++ [(pkt, gate)] := by rw [← List.append_assoc, h.passed]

theorem Fills.nextBatch (h : gb.Fills entries) (hfull : (gb.batches gb.batchPos).length = kMaxBurst)
    (hpos : gb.batchPos < bufferBatchSize - 1) : gb.nextBatch.Holds entries := by
  have hempty : gb.nextBatch.batches gb.nextBatch.batchPos = [] := by simp [GiantBatch.nextBatch]
  have hsame : ∀ pos ≤ gb.batchPos, gb.nextBatch.batches pos = gb.batches pos := by
    intro pos hle
    exact update_of_ne (by omega) _ _
  refine ⟨⟨Nat.add_lt_of_lt_sub hpos, ?_, ?_, ?_, ?_⟩, ?_⟩
  · intro pos hlt
    have hle : pos ≤ gb.batchPos := Nat.le_of_lt_succ hlt
    rw [hsame pos hle]
    rcases hle.lt_or_eq with hbefore | rfl
    · exact h.full pos hbefore
    · exact hfull
  · rw [hempty]
    exact Nat.zero_le _
  · rw [hempty]
    calc gb.gatePos = gb.batchPos * kMaxBurst + kMaxBurst := by rw [h.gatePos, hfull]
      _ = (gb.batchPos + 1) * kMaxBurst + 0 := by rw [Nat.succ_mul, Nat.add_zero]
  · have hsplit : ∀ pos ≤ gb.batchPos, gb.nextBatch.runSplit pos = gb.runSplit pos :=
      fun pos hle ↦ runSplit_congr (hsame pos hle) fun _ _ ↦ rfl
    have hnil : gb.nextBatch.runSplit gb.nextBatch.batchPos = [] := by
      rw [runSplit, hempty]
      rfl
    calc (List.range (gb.batchPos + 1)).flatMap gb.nextBatch.runSplit ++
            gb.nextBatch.runSplit gb.nextBatch.batchPos
        = (List.range (gb.batchPos + 1)).flatMap gb.runSplit := by
          rw [hnil, List.append_nil,
            List.flatMap_congr fun pos hmem ↦ hsplit pos (Nat.le_of_lt_succ (List.mem_range.1 hmem))]
      _ = entries := by
          rw [List.range_succ, List.flatMap_append, List.flatMap_singleton, h.passed]
  · rw [hempty]
    exact fun hzero ↦ absurd hzero (by decide)

/-- The room of the giant batch is that of the collective buffer. -/
theorem Holds.addPktSetGate (h : gb.Holds entries) (pkt : Packet) (gate : UInt16) :
    if entries.length < Runtime.collectiveBufferSize then
      ∃ gb', gb.addPktSetGate pkt gate = some gb' ∧ gb'.Holds (entries ++ [(pkt, gate)])
    else gb.addPktSetGate pkt gate = none := by
  rw [Runtime.collectiveBufferSize, ← h.length, Nat.mul_comm, GiantBatch.addPktSetGate]
  split
  · next hroom =>
    have hlast : (gb.batches gb.batchPos).length < kMaxBurst := by
      apply lt_of_le_of_ne h.last_le
      intro hfull
      have hgate := h.gatePos
      rw [hfull, h.last_full hfull, bufferBatchSize] at hgate
      omega
    have hput := h.put hlast pkt gate
    rw [if_pos ⟨hroom, hlast⟩]
    split
    · next hnext => exact ⟨_, rfl, hput.nextBatch hnext.1 hnext.2⟩
    · next hstay =>
      refine ⟨_, rfl, hput, fun hfull ↦ ?_⟩
      have hpos := h.pos_lt
      have hnot : ¬gb.batchPos < bufferBatchSize - 1 := fun hlt ↦ hstay ⟨hfull, hlt⟩
      exact (Nat.le_antisymm (Nat.le_pred_of_lt hpos) (not_lt.1 hnot))
  · next hover => exact if_neg fun hguard ↦ hover hguard.1

/-- Packets for which there is room are passed on in order, each with its gate. -/
theorem Holds.addAll {added : List (Packet × UInt16)} (h : gb.Holds entries)
    (hroom : (entries ++ added).length ≤ Runtime.collectiveBufferSize) :
    ∃ gb', GiantBatch.addAll added gb = some gb' ∧ gb'.Holds (entries ++ added) := by
  induction added generalizing gb entries with
  | nil => exact ⟨gb, rfl, (List.append_nil entries).symm ▸ h⟩
  | cons entry _ ih =>
    rw [List.append_cons] at hroom ⊢
    have hlt : entries.length < Runtime.collectiveBufferSize := by
      rw [List.length_append, List.length_append] at hroom
      exact lt_of_lt_of_le (Nat.lt_succ_self _) ((Nat.le_add_right _ _).trans hroom)
    have hadd := h.addPktSetGate entry.1 entry.2
    rw [if_pos hlt] at hadd
    obtain ⟨mid, hmid, hholds⟩ := hadd
    obtain ⟨gb', hrest, hlast⟩ := ih hholds hroom
    refine ⟨gb', ?_, hlast⟩
    rw [GiantBatch.addAll, hmid]
    exact hrest

end GiantBatch

/-! ## Handling a message on an empty giant batch -/

namespace Runtime

variable {σ τ : Type}

def withGb (rt : Runtime σ τ) (gb : List (Packet × UInt16)) : Runtime σ τ := { rt with gb }

/-- The function neither reads nor changes the giant batch. -/
def Blind (f : Runtime σ τ → Option (Runtime σ τ)) : Prop :=
  ∀ (rt : Runtime σ τ) gb, f (rt.withGb gb) = (f rt).map fun rt' ↦ rt'.withGb gb

/-- The function appends to the giant batch what it puts into an empty one, or faults for lack of room. -/
def Appends (f : Runtime σ τ → Option (Runtime σ τ)) : Prop :=
  ∀ (rt : Runtime σ τ) gb, gb.length ≤ collectiveBufferSize → f (rt.withGb gb) = (f (rt.withGb [])).bind fun rt' ↦
    if (gb ++ rt'.gb).length ≤ collectiveBufferSize then some (rt'.withGb (gb ++ rt'.gb)) else none

variable {f g : Runtime σ τ → Option (Runtime σ τ)}

theorem Blind.appends (h : Blind f) : Appends f := by
  intro rt gb hgb
  rw [h, h rt []]
  cases f rt with
  | none => rfl
  | some rt' =>
    have hroom : (gb ++ []).length ≤ collectiveBufferSize := by
      rw [List.append_nil]
      exact hgb
    rw [Option.map_some, Option.map_some, Option.bind_some]
    change _ = if (gb ++ []).length ≤ collectiveBufferSize then some (rt'.withGb (gb ++ [])) else none
    rw [if_pos hroom, List.append_nil]

theorem Blind.bind (hf : Blind f) (hg : Blind g) : Blind fun rt ↦ (f rt).bind g := by
  intro rt gb
  dsimp only
  rw [hf]
  cases f rt with
  | none => rfl
  | some rt' => exact hg rt' gb

theorem Appends.fits (h : Appends f) {rt rt' : Runtime σ τ} (hrt : f (rt.withGb []) = some rt') :
    rt'.gb.length ≤ collectiveBufferSize := by
  have heq := h rt [] (Nat.zero_le _)
  rw [hrt, Option.bind_some, List.nil_append] at heq
  split at heq
  · assumption
  · cases heq

theorem Appends.bind (hf : Appends f) (hg : Appends g) : Appends fun rt ↦ (f rt).bind g := by
  intro rt gb hgb
  dsimp only
  rw [hf rt gb hgb]
  cases hmid : f (rt.withGb []) with
  | none => rfl
  | some mid =>
    rw [Option.bind_some, Option.bind_some]
    have halone : g mid = _ := hg mid mid.gb (hf.fits hmid)
    rw [halone]
    split
    · next hfits =>
      rw [Option.bind_some, hg mid _ hfits]
      cases hlast : g (mid.withGb []) with
      | none => rfl
      | some last =>
        rw [Option.bind_some, Option.bind_some, List.append_assoc]
        by_cases hall : (gb ++ (mid.gb ++ last.gb)).length ≤ collectiveBufferSize
        · have hsome : (mid.gb ++ last.gb).length ≤ collectiveBufferSize := by
            rw [List.length_append] at hall
            exact (Nat.le_add_left _ _).trans hall
          rw [if_pos hall, if_pos hsome, Option.bind_some]
          exact (if_pos hall).symm
        · rw [if_neg hall]
          split
          · exact (if_neg hall).symm
          · rfl
    · next hover =>
      rw [Option.bind_none]
      cases hlast : g (mid.withGb []) with
      | none => rfl
      | some last =>
        rw [Option.bind_some]
        split
        · rw [Option.bind_some]
          refine (if_neg fun hall ↦ hover ?_).symm
          change (gb ++ (mid.gb ++ last.gb)).length ≤ _ at hall
          rw [← List.append_assoc, List.length_append] at hall
          exact (Nat.le_add_right _ _).trans hall
        · rfl

theorem Appends.map {change : Runtime σ τ → Runtime σ τ} (hf : Appends f)
    (hchange : ∀ rt gb, change (rt.withGb gb) = (change rt).withGb gb) :
    Appends fun rt ↦ (f rt).map change := by
  have hblind : Blind fun rt ↦ some (change rt) := fun rt gb ↦ congrArg some (hchange rt gb)
  have hbind := hf.bind hblind.appends
  simp only [Option.map_eq_bind]
  exact hbind

theorem Appends.ite {c : Runtime σ τ → Prop} [DecidablePred c] (hc : ∀ rt gb, c (rt.withGb gb) ↔ c rt)
    (hf : Appends f) (hg : Appends g) : Appends fun rt ↦ if c rt then f rt else g rt := by
  intro rt gb hgb
  simp only [hc]
  split
  · exact hf rt gb hgb
  · exact hg rt gb hgb

section Handlers

variable (rt : Runtime σ τ) (gb : List (Packet × UInt16)) (env : Environment σ) (ptr : ℕ)
  (requestMsgId : UInt32) (senderRtid senderActorId msgId : UInt32) (key : FlowKey) (newOutputRtId : UInt32)

@[simp]
theorem actors_withGb : (rt.withGb gb).actors = rt.actors := rfl

theorem htable_withGb : (rt.withGb gb).htable = rt.htable := rfl

theorem actoridHtable_withGb : (rt.withGb gb).actoridHtable = rt.actoridHtable := rfl

theorem replicaFlowLists_withGb : (rt.withGb gb).replicaFlowLists = rt.replicaFlowLists := rfl

@[simp]
theorem modifyActor_withGb (change : FlowActor → FlowActor) :
    (rt.withGb gb).modifyActor ptr change = (rt.modifyActor ptr change).withGb gb := rfl

@[simp]
theorem invalidate_withGb (kind : TimerKind) :
    (rt.withGb gb).invalidate ptr kind = (rt.invalidate ptr kind).withGb gb := rfl

@[simp]
theorem sendMessage_withGb (sendOk : Bool) (destRtid sendActorId recvActorId : UInt32) (body : MessageBody σ) :
    (rt.withGb gb).sendMessage env sendOk destRtid sendActorId recvActorId body =
      (rt.sendMessage env sendOk destRtid sendActorId recvActorId body).map fun sent ↦
        (sent.1, sent.2.withGb gb) := by
  unfold sendMessage
  cases env.reliables destRtid with
  | none => rfl
  | some =>
    simp only [Option.map_some]
    split <;> rfl

@[simp]
theorem addTimer_withGb (kind : TimerKind) (requestMsgId : UInt32) (msgType : TimerMessage) :
    (rt.withGb gb).addTimer ptr kind requestMsgId msgType =
      (rt.addTimer ptr kind requestMsgId msgType).map fun rt' ↦ rt'.withGb gb := by
  simp only [addTimer, apply_ite (Option.map _)]
  rfl

@[simp]
theorem removeFlow_withGb :
    (rt.withGb gb).removeFlow ptr = (rt.removeFlow ptr).map fun rt' ↦ rt'.withGb gb := by
  simp only [removeFlow, unlink, apply_ite (Option.map _)]
  rfl

@[simp]
theorem updateRoute_withGb :
    (rt.withGb gb).updateRoute env key newOutputRtId =
      (rt.updateRoute env key newOutputRtId).map fun updated ↦ (updated.1, updated.2.withGb gb) := by
  rw [updateRoute, updateRoute, htable_withGb]
  cases rt.htable key with
  | none => rfl
  | some =>
    rw [Option.map_map]
    rfl

@[simp]
theorem failureHandling_withGb (sendOk : Bool) : (rt.withGb gb).failureHandling env sendOk ptr =
      (rt.failureHandling env sendOk ptr).map fun rt' ↦ rt'.withGb gb := by
  simp only [failureHandling, modifyActor_withGb, sendMessage_withGb, Option.bind_map, Option.map_bind,
    Function.comp_def, addTimer_withGb]
  rfl

@[simp]
theorem shipFlowState_withGb :
    (rt.withGb gb).shipFlowState env ptr = (rt.shipFlowState env ptr).map fun rt' ↦ rt'.withGb gb := by
  simp only [shipFlowState, modifyActor_withGb, sendMessage_withGb, Option.bind_map, Option.map_bind,
    Function.comp_def, addTimer_withGb, failureHandling_withGb, apply_ite (Option.map _)]
  rfl

theorem blind_startMigrationResponse (requestMsgId migrationTargetActorId : UInt32) :
    Blind fun rt : Runtime σ τ ↦ rt.startMigrationResponse env ptr requestMsgId migrationTargetActorId := by
  intro rt gb
  simp only [startMigrationResponse, invalidate_withGb, modifyActor_withGb, sendMessage_withGb, Option.bind_map,
    Option.map_bind, Function.comp_def, addTimer_withGb, apply_ite (Option.map _)]
  rfl

theorem blind_changeVswitchRouteResponse (requestMsgId changeRouteSucceed : UInt32) :
    Blind fun rt : Runtime σ τ ↦ rt.changeVswitchRouteResponse env ptr requestMsgId changeRouteSucceed := by
  intro rt gb
  simp only [changeVswitchRouteResponse, invalidate_withGb, shipFlowState_withGb, apply_ite (Option.map _)]
  rfl

theorem blind_migrateFlowStateResponse :
    Blind fun rt : Runtime σ τ ↦ rt.migrateFlowStateResponse ptr requestMsgId := by
  intro rt gb
  simp only [migrateFlowStateResponse, apply_ite (Option.map _), ← removeFlow_withGb]
  rfl

theorem blind_replicaRecoverResponse :
    Blind fun rt : Runtime σ τ ↦ rt.replicaRecoverResponse ptr requestMsgId := by
  intro rt gb
  simp only [replicaRecoverResponse, apply_ite (Option.map _)]
  rfl

theorem blind_ping (senderRtid : UInt32) : Blind fun rt : Runtime σ τ ↦ rt.ping env senderRtid := by
  intro rt gb
  simp only [ping, Option.map_map, Function.comp_def, apply_ite fun rt' : Runtime σ τ ↦ rt'.withGb gb]
  rfl

theorem blind_changeVswitchRoute : Blind fun rt : Runtime σ τ ↦
      rt.changeVswitchRoute env senderRtid senderActorId msgId key newOutputRtId := by
  intro rt gb
  simp [changeVswitchRoute, Option.bind_map, Option.map_bind, Function.comp_def]

theorem blind_replicaRecover : Blind fun rt : Runtime σ τ ↦
      rt.replicaRecover env senderRtid senderActorId msgId key newOutputRtId := by
  intro rt gb
  simp [replicaRecover, Option.bind_map, Option.map_bind, Function.comp_def]

@[simp]
theorem allocate_withGb : (rt.withGb gb).allocate = rt.allocate.map fun taken ↦ (taken.1, taken.2.withGb gb) := by
  simp only [allocate, Option.map_map]
  rfl

@[simp]
theorem initFlow_withGb (state : FlowState) (replication : ReplicationState) (r : Option UInt32)
    (inputHeader outputHeader : EtherHeader) (initialise : Bool) :
    (rt.withGb gb).initFlow ptr key state replication r inputHeader outputHeader initialise =
      (rt.initFlow ptr key state replication r inputHeader outputHeader initialise).map fun rt' ↦
        rt'.withGb gb := by
  simp only [initFlow, ← addTimer_withGb]
  rfl

theorem blind_createMigrationTargetActor (inputHeader outputHeader : EtherHeader)
    (key : FlowKey) : Blind fun rt : Runtime σ τ ↦
      rt.createMigrationTargetActor env senderRtid senderActorId msgId inputHeader outputHeader key := by
  intro rt gb
  dsimp only
  rw [createMigrationTargetActor, createMigrationTargetActor, allocate_withGb]
  cases rt.allocate with
  | none => rfl
  | some taken =>
    have hinit : Blind fun rt : Runtime σ τ ↦
        (rt.addTail .activeFlows taken.1).flowActorInitWithCstruct taken.1 key inputHeader outputHeader :=
      fun rt gb ↦ initFlow_withGb (rt.addTail .activeFlows taken.1) gb taken.1 ..
    have hanswer : Blind fun rt : Runtime σ τ ↦ ((rt.bind key taken.1).sendMessage env env.sendOk senderRtid
        coordinatorActorId senderActorId (.startMigrationResponse msgId
          ((rt.bind key taken.1).actors taken.1).actorId)).map Prod.snd := by
      intro rt gb
      have hsend := sendMessage_withGb (rt.bind key taken.1) gb env env.sendOk senderRtid coordinatorActorId
        senderActorId (.startMigrationResponse msgId ((rt.bind key taken.1).actors taken.1).actorId)
      calc _ = (((rt.bind key taken.1).sendMessage env env.sendOk senderRtid coordinatorActorId senderActorId
              (.startMigrationResponse msgId ((rt.bind key taken.1).actors taken.1).actorId)).map fun sent ↦
                (sent.1, sent.2.withGb gb)).map Prod.snd := congrArg (Option.map Prod.snd) hsend
        _ = _ := by rw [Option.map_map, Option.map_map]; rfl
    exact (hinit.bind hanswer) taken.2 gb

theorem appends_addPktSetGate (pkt : Packet) (gate : UInt16) :
    Appends fun rt : Runtime σ τ ↦ rt.addPktSetGate pkt gate := by
  intro rt gb hgb
  have hroom : (rt.withGb []).gb.length < collectiveBufferSize := (by decide : 0 < collectiveBufferSize)
  simp only [addPktSetGate, if_pos hroom, Option.bind_some]
  change (if gb.length < _ then _ else _) = if (gb ++ ([] ++ [(pkt, gate)])).length ≤ _ then _ else _
  rw [List.nil_append, List.length_append]
  rfl

theorem appends_repFsPktMsg (states : ℕ → σ) (pkt : Packet) :
    Appends fun rt : Runtime σ τ ↦ rt.repFsPktMsg ptr states pkt := by
  have hsame : Blind fun rt : Runtime σ τ ↦ some rt := fun _ _ ↦ rfl
  have hload : Blind fun rt : Runtime σ τ ↦ some ({ rt with
      nfs := NfTable.loadChain (fun nf _ ↦ nf) states 0 (rt.actors ptr).chain rt.nfs }.modifyActor ptr
        fun actor ↦ { actor with pktCounter := actor.pktCounter + 1 }) := fun _ _ ↦ rfl
  exact Appends.ite (c := fun rt ↦ (rt.actors ptr).replicationState ≠ .isReplica) (fun _ _ ↦ Iff.rfl)
    hsame.appends (hload.appends.bind (appends_addPktSetGate pkt 1))

theorem appends_replayPacket (cell : ℕ × Packet) :
    Appends fun rt : Runtime σ τ ↦ rt.replayPacket ptr cell := by
  have hcollect : Blind fun rt : Runtime σ τ ↦
      let result := NfTable.runChain (rt.actors ptr).chain cell.2 rt.nfs
      some ({ rt with nfs := result.2.2 }.collect result.2.1) := fun _ _ ↦ rfl
  have hadd : Appends fun rt : Runtime σ τ ↦
      let result := NfTable.runChain (rt.actors ptr).chain cell.2 rt.nfs
      { rt with nfs := result.2.2 }.addPktSetGate (writeEther result.2.1 (rt.actors ptr).outputHeader) 1 := by
    intro rt gb hgb
    exact appends_addPktSetGate _ 1 { rt with nfs := (NfTable.runChain (rt.actors ptr).chain cell.2 rt.nfs).2.2 }
      gb hgb
  exact (Appends.ite (c := fun rt ↦ (NfTable.runChain (rt.actors ptr).chain cell.2 rt.nfs).1 = true)
    (fun _ _ ↦ Iff.rfl) hadd hcollect.appends).map fun _ _ ↦ rfl

theorem appends_replayBuffer (cells : List (ℕ × Packet)) :
    Appends fun rt : Runtime σ τ ↦ rt.replayBuffer ptr cells := by
  induction cells with
  | nil =>
    have hempty : Blind fun rt : Runtime σ τ ↦ rt.replayBuffer ptr [] := fun _ _ ↦ rfl
    exact hempty.appends
  | cons cell _ ih => exact (appends_replayPacket ptr cell).bind ih

theorem appends_migrateFlowState (senderRtid senderActorId requestMsgId : UInt32) (states : ℕ → σ) :
    Appends fun rt : Runtime σ τ ↦ rt.migrateFlowState env ptr senderRtid senderActorId requestMsgId states := by
  have hready : Blind fun rt : Runtime σ τ ↦
      let loaded := NfTable.loadChain (fun nf slot ↦ nf.nfFlowArrive slot .migrateIn) states 0
        (rt.actors ptr).chain rt.nfs
      ({ rt with nfs := loaded }.sendMessage env env.sendOk senderRtid (rt.actors ptr).actorId senderActorId
        (.migrateFlowStateResponse requestMsgId)).map fun sent : Bool × Runtime σ τ ↦
        let rt := (sent.2.modifyActor ptr fun actor ↦
          { actor with currentState := .normalProcessing }).addTail .activeFlows ptr
        { rt with migration := { rt.migration with
            migratedInFlowNum := rt.migration.migratedInFlowNum + 1 } } := by
    intro rt gb
    let loaded := NfTable.loadChain (fun nf slot ↦ nf.nfFlowArrive slot .migrateIn) states 0
      (rt.actors ptr).chain rt.nfs
    have hsend := sendMessage_withGb { rt with nfs := loaded } gb env env.sendOk senderRtid
      (rt.actors ptr).actorId senderActorId (.migrateFlowStateResponse requestMsgId)
    refine (congrArg (Option.map _) hsend).trans ?_
    rw [Option.map_map, Option.map_map]
    rfl
  intro rt gb hgb
  by_cases hset : (rt.actors ptr).coordinatorSet = true
  · have happends := (hready.appends.bind (appends_replayBuffer ptr (rt.actors ptr).buffer)) rt gb hgb
    simp only [Option.bind_map, Function.comp_def] at happends
    simp only [migrateFlowState, actors_withGb, hset, if_true]
    exact happends
  · simp only [migrateFlowState, actors_withGb, hset]
    rfl

theorem appends_replicationMsg (senderRtid : UInt32) (inputHeader outputHeader : EtherHeader) (key : FlowKey)
    (states : ℕ → σ) (pkt : Packet) :
    Appends fun rt : Runtime σ τ ↦ rt.replicationMsg senderRtid inputHeader outputHeader key states pkt := by
  intro rt gb hgb
  have hrep : ∀ ptr, Appends fun rt : Runtime σ τ ↦ rt.repFsPktMsg ptr states pkt :=
    fun ptr ↦ appends_repFsPktMsg ptr states pkt
  dsimp only
  rw [replicationMsg, replicationMsg, htable_withGb, htable_withGb]
  cases rt.htable key with
  | some ptr => exact hrep ptr rt gb hgb
  | none =>
    rw [allocate_withGb, allocate_withGb]
    cases rt.allocate with
    | none => exact hrep deadendFlowActor (rt.bind key deadendFlowActor) gb hgb
    | some taken =>
      simp only [Option.map_some, replicaFlowLists_withGb]
      cases taken.2.replicaFlowLists senderRtid with
      | none => rfl
      | some head =>
        have hinit : Blind fun rt : Runtime σ τ ↦ (rt.addTail (.replicaFlows head) taken.1)
            |>.flowActorInitWithFirstRepPkt taken.1 key inputHeader outputHeader :=
          fun rt gb ↦ initFlow_withGb (rt.addTail (.replicaFlows head) taken.1) gb taken.1 ..
        have hbound : Appends fun rt : Runtime σ τ ↦ (rt.bind key taken.1).repFsPktMsg taken.1 states pkt :=
          fun rt gb hgb ↦ hrep taken.1 (rt.bind key taken.1) gb hgb
        exact (hinit.appends.bind hbound) taken.2 gb hgb

end Handlers

/-! ## A whole control batch -/

/-- A message that `recv` has completed, with the peer it comes from. -/
abbrev Arrival (σ : Type) := Environment σ × UInt32 × Message σ

def handle (arrival : Arrival σ) (rt : Runtime σ τ) : Option (Runtime σ τ) :=
  rt.step (.message arrival.1 arrival.2.1 arrival.2.2)

theorem appends_handle (arrival : Arrival σ) : Appends (handle arrival : Runtime σ τ → Option (Runtime σ τ)) := by
  obtain ⟨env, senderRtid, message⟩ := arrival
  intro rt gb hgb
  have hnone : Blind fun _ : Runtime σ τ ↦ (none : Option (Runtime σ τ)) := fun _ _ ↦ rfl
  have hsame : Blind fun rt : Runtime σ τ ↦ some rt := fun _ _ ↦ rfl
  change (rt.withGb gb).matchMessage env senderRtid message =
    ((rt.withGb []).matchMessage env senderRtid message).bind _
  unfold matchMessage
  split
  · unfold matchCoordinator
    cases message.body with
    | ping => exact (blind_ping env senderRtid).appends rt gb hgb
    | pong => exact hsame.appends rt gb hgb
    | createMigrationTargetActor inputHeader outputHeader key =>
      exact (blind_createMigrationTargetActor env senderRtid _ _ inputHeader outputHeader key).appends rt gb hgb
    | changeVswitchRoute key newOutputRtId =>
      exact (blind_changeVswitchRoute env senderRtid _ _ key newOutputRtId).appends rt gb hgb
    | replication inputHeader outputHeader key states pkt =>
      exact appends_replicationMsg senderRtid inputHeader outputHeader key states pkt rt gb hgb
    | replicaRecover key newOutputRtId =>
      exact (blind_replicaRecover env senderRtid _ _ key newOutputRtId).appends rt gb hgb
    | _ => rfl
  · rw [actoridHtable_withGb, actoridHtable_withGb]
    cases rt.actoridHtable message.recvActorId with
    | none => exact hsame.appends rt gb hgb
    | some ptr =>
      unfold matchFlowActor
      cases message.body with
      | startMigrationResponse requestMsgId migrationTargetActorId =>
        exact (blind_startMigrationResponse env ptr requestMsgId migrationTargetActorId).appends rt gb hgb
      | changeVswitchRouteResponse requestMsgId changeRouteSucceed =>
        exact (blind_changeVswitchRouteResponse env ptr requestMsgId changeRouteSucceed).appends rt gb hgb
      | migrateFlowState states => exact appends_migrateFlowState env ptr senderRtid _ _ states rt gb hgb
      | migrateFlowStateResponse requestMsgId =>
        exact (blind_migrateFlowStateResponse ptr requestMsgId).appends rt gb hgb
      | replicaRecoverResponse requestMsgId =>
        exact (blind_replicaRecoverResponse ptr requestMsgId).appends rt gb hgb
      | _ => rfl

def handleAll : List (Arrival σ) → Runtime σ τ → Option (Runtime σ τ)
  | [], rt => some rt
  | arrival :: rest, rt => (handle arrival rt).bind (handleAll rest)

/-- `ProcessBatch` up to `RunSplit`, for the packets that complete a message. -/
def processBatch (rt : Runtime σ τ) (arrivals : List (Arrival σ)) : Option (Runtime σ τ) :=
  (rt.step .beginControlBatch).bind (handleAll arrivals)

/-- The same messages, each on an empty giant batch, with all packets they add. -/
def handleApart : List (Arrival σ) → Runtime σ τ → Option (Runtime σ τ × List (Packet × UInt16))
  | [], rt => some (rt, [])
  | arrival :: rest, rt => (handle arrival (rt.withGb [])).bind fun rt' ↦
    (handleApart rest rt').map fun result ↦ (result.1, rt'.gb ++ result.2)

/-- A control batch differs from its messages handled apart only in the room for packets. -/
theorem handleAll_eq (arrivals : List (Arrival σ)) (rt : Runtime σ τ) {gb : List (Packet × UInt16)}
    (hgb : gb.length ≤ collectiveBufferSize) :
    handleAll arrivals (rt.withGb gb) = (handleApart arrivals rt).bind fun result ↦
      if (gb ++ result.2).length ≤ collectiveBufferSize then some (result.1.withGb (gb ++ result.2)) else none := by
  induction arrivals generalizing rt gb with
  | nil =>
    rw [handleApart, Option.bind_some, List.append_nil, if_pos hgb]
    rfl
  | cons arrival rest ih =>
    rw [handleAll, handleApart, appends_handle arrival rt gb hgb]
    cases handle arrival (rt.withGb []) with
    | none => rfl
    | some mid =>
      rw [Option.bind_some, Option.bind_some, Option.bind_map]
      split
      · next hfits =>
        rw [Option.bind_some, ih mid hfits]
        simp only [Function.comp_def, List.append_assoc]
      · next hover =>
        cases handleApart rest mid with
        | none => rfl
        | some =>
          refine (if_neg fun hall ↦ hover ?_).symm
          rw [← List.append_assoc, List.length_append] at hall
          exact (Nat.le_add_right _ _).trans hall

variable {rt rt' last : Runtime σ τ} {arrivals : List (Arrival σ)} {added : List (Packet × UInt16)}

/-- The packets that wait for the flow state of the actor with this id. -/
def buffered (rt : Runtime σ τ) (actorId : UInt32) : ℕ :=
  (rt.actoridHtable actorId).elim 0 fun ptr ↦ (rt.actors ptr).buffer.length

/-- What a message can add: the buffer that waits for its flow state, or the packet of a replica. -/
def demand (rt : Runtime σ τ) (message : Message σ) : ℕ :=
  match message.body with
  | .migrateFlowState _ => rt.buffered message.recvActorId
  | .replication .. => 1
  | _ => 0

/-- A buffer list grows only by a packet for a migration target. -/
theorem buffer_step {input : Input σ} {ptr : ℕ} (hblank : rt.ledger.DeadendBlank) (h : rt.step input = some rt')
    (hkept : ∀ env pkt, input = .packet env pkt → (rt.actors ptr).currentState ≠ .migrationTarget) :
    (rt'.actors ptr).buffer.length ≤ (rt.actors ptr).buffer.length := by
  have hheld {store : CellStore} (hstore : rt'.store = store) : (rt'.actors ptr).buffer = store.held ptr :=
    congrFun (congrArg CellStore.held hstore) ptr
  have hclear (other : ℕ) : (update rt.store.held other [] ptr).length ≤ (rt.actors ptr).buffer.length := by
    by_cases heq : ptr = other
    · rw [heq, update_self]
      exact Nat.zero_le _
    · rw [update_of_ne heq]
      rfl
  cases step_moves hblank h with
  | still _ _ _ _ hstore => exact (congrArg List.length (hheld hstore)).le
  | kept env pkt _ other _ _ _ hstate _ hstore =>
    have hne : ptr ≠ other := fun heq ↦ hkept env pkt rfl (heq ▸ hstate)
    have hsame : (rt'.actors ptr).buffer = (rt.actors ptr).buffer :=
      (hheld hstore).trans (update_of_ne hne _ _)
    rw [hsame]
  | started _ _ other _ _ _ _ hstore | replayed _ _ _ _ other _ hstore | discarded _ other _ _ _ hstore =>
    exact (congrArg List.length (hheld hstore)).trans_le (hclear other)

theorem buffer_deadend (hreach : (system σ τ).Reachable TransitionSystem.anyStep rt) :
    (rt.actors deadendFlowActor).buffer = [] := by
  induction hreach with
  | start h =>
    obtain ⟨_, _, _, _, _, rfl⟩ := h
    rfl
  | next _ hprev _ hs ih =>
    have hblank := (sound_of_reachable hprev).blank
    have hstate : FlowState.uninitialised ≠ .migrationTarget := by decide
    have hle := buffer_step hblank hs fun _ _ _ ↦ hblank.state.trans_ne hstate
    rw [ih, List.length_nil, Nat.le_zero, List.length_eq_zero_iff] at hle
    exact hle

theorem repFsPktMsg_adds {ptr : ℕ} {states : ℕ → σ} {pkt : Packet} (h : rt.repFsPktMsg ptr states pkt = some rt') :
    rt'.gb.length ≤ rt.gb.length + 1 := by
  obtain ⟨-, rfl⟩ | ⟨-, rfl⟩ := repFsPktMsg_cases h
  · exact Nat.le_succ _
  · exact (List.length_append ..).le

theorem replayBuffer_adds {ptr : ℕ} (cells : List (ℕ × Packet)) (h : rt.replayBuffer ptr cells = some rt') :
    rt'.gb.length ≤ rt.gb.length + cells.length := by
  induction cells generalizing rt with
  | nil =>
    cases h
    rfl
  | cons cell _ ih =>
    obtain ⟨mid, hmid, hrest⟩ := Option.bind_eq_some_iff.1 h
    have hone : mid.gb.length ≤ rt.gb.length + 1 := by
      obtain ⟨output, houtput, rfl⟩ := Option.map_eq_some_iff.1 hmid
      split at houtput
      · rw [addPktSetGate_eq houtput]
        exact (List.length_append ..).le
      · cases houtput
        exact Nat.le_succ _
    have hall := ih hrest
    rw [List.length_cons]
    omega

/-- An entry of the table of ids is an old one, or its actor has no buffered packets. -/
def Entered (rt rt' : Runtime σ τ) : Prop :=
  ∀ actorId ptr, rt'.actoridHtable actorId = some ptr →
    rt.actoridHtable actorId = some ptr ∨ (rt'.actors ptr).buffer = []

namespace Entered

theorem of_same (h : rt'.actoridHtable = rt.actoridHtable) : rt.Entered rt' :=
  fun actorId _ hid ↦ .inl ((congrFun h actorId).symm.trans hid)

theorem of_update {actorId : UInt32} {entry : Option ℕ}
    (h : rt'.actoridHtable = update rt.actoridHtable actorId entry)
    (hempty : ∀ ptr, entry = some ptr → (rt'.actors ptr).buffer = []) : rt.Entered rt' := by
  intro other ptr hid
  rw [h, update_apply] at hid
  split at hid
  · exact .inr (hempty ptr hid)
  · exact .inl hid

theorem opened (rt : Runtime σ τ) (opening : Opening) : rt.Entered (rt.opened opening) := by
  refine .of_update ((congrArg Ledger.actoridHtable (ledger_opened rt opening)).trans
    (rt.ledger.actoridHtable_enroll ..)) ?_
  intro ptr hptr
  have hheld : (rt.opened opening).store.held ptr = [] := by
    rw [store_opened, ← Option.some.inj hptr]
    exact update_self ..
  exact hheld

theorem repFsPktMsg {mid : Runtime σ τ} {ptr : ℕ} {states : ℕ → σ} {pkt : Packet} (h : rt.Entered mid)
    (hrep : mid.repFsPktMsg ptr states pkt = some rt') : rt.Entered rt' := by
  intro actorId other hid
  have hids := congrFun (congrArg Ledger.actoridHtable (repFsPktMsg_spec hrep)) actorId
  have hheld := congrFun (congrArg CellStore.held (repFsPktMsg_store hrep)) other
  exact (h actorId other (hids.symm.trans hid)).imp_right hheld.trans

end Entered

theorem gb_removed (rt : Runtime σ τ) (ptr : ℕ) : (rt.removed ptr).gb = rt.gb := by
  unfold removed
  dsimp only
  split <;> rfl

theorem actoridHtable_removed (rt : Runtime σ τ) (ptr : ℕ) :
    (rt.removed ptr).actoridHtable = update rt.actoridHtable (rt.actors ptr).actorId none := by
  unfold removed
  dsimp only
  split <;> rfl

/-- What a message adds to the giant batch, and whose buffers its entries name. -/
theorem message_adds {env : Environment σ} {senderRtid : UInt32} {message : Message σ}
    (hreach : (system σ τ).Reachable TransitionSystem.anyStep rt)
    (h : rt.step (.message env senderRtid message) = some rt') :
    rt'.gb.length ≤ rt.gb.length + rt.demand message ∧ rt.Entered rt' := by
  cases step_outcome h with
  | rest | ping | recovered => exact ⟨Nat.le_add_right _ _, .of_same rfl⟩
  | tally _ _ htallies => cases htallies
  | abandon _ _ _ habandons =>
    cases habandons
    exact ⟨Nat.le_add_right _ _, .of_same rfl⟩
  | ask _ _ _ _ _ hprepares =>
    cases hprepares <;> exact ⟨Nat.le_add_right _ _, .of_same rfl⟩
  | newFlow _ _ _ _ hopens =>
    cases hopens with
    | target => exact ⟨Nat.le_add_right _ _, Entered.opened rt _⟩
    | replica _ _ _ _ _ _ _ _ _ _ _ _ _ _ hbody _ _ hrep =>
      have hadds := repFsPktMsg_adds hrep
      refine ⟨?_, (Entered.opened rt _).repFsPktMsg hrep⟩
      rw [demand, hbody]
      exact hadds
  | route _ _ _ key newOutputRtId _ _ _ _ _ hupdated =>
    have hsame : rt.updateRoute env key newOutputRtId = _ := updateRoute_withGb rt rt.gb env key newOutputRtId
    rw [hupdated, Option.map_some, Option.some.injEq] at hsame
    have hgb := congrArg (fun updated ↦ updated.2.gb.length) hsame
    exact ⟨hgb.le.trans (Nat.le_add_right _ _),
      .of_same (congrArg Ledger.actoridHtable (updateRoute_spec hupdated))⟩
  | mirror _ _ _ _ _ _ _ _ _ _ _ hbody _ hrep =>
    refine ⟨?_, Entered.repFsPktMsg (.of_same rfl) hrep⟩
    rw [demand, hbody]
    exact repFsPktMsg_adds hrep
  | bindDeadend _ _ _ _ _ key _ _ _ _ hbody _ _ hrep =>
    have hadds := repFsPktMsg_adds hrep
    have hempty := buffer_deadend hreach
    refine ⟨?_, Entered.repFsPktMsg (.of_update rfl fun ptr hptr ↦ ?_) hrep⟩
    · rw [demand, hbody]
      exact hadds
    · rw [← Option.some.inj hptr]
      exact hempty
  | arrive _ _ _ ptr _ _ _ hdelivers hbody hreplay =>
    have hbuffered : rt.buffered message.recvActorId = (rt.actors ptr).buffer.length := by
      rw [buffered, show rt.actoridHtable message.recvActorId = some ptr from hdelivers.2.1]
      rfl
    refine ⟨?_, .of_same (congrArg Ledger.actoridHtable (replayBuffer_spec _ hreplay))⟩
    rw [demand, hbody]
    exact (replayBuffer_adds _ hreplay).trans_eq (congrArg _ hbuffered.symm)
  | complete _ _ _ ptr =>
    refine ⟨?_, .of_update (actoridHtable_removed (rt.settled ptr) ptr) (by simp)⟩
    rw [gb_removed]
    exact Nat.le_add_right _ _

theorem buffered_message {env : Environment σ} {senderRtid : UInt32} {message : Message σ}
    (hreach : (system σ τ).Reachable TransitionSystem.anyStep rt)
    (h : rt.step (.message env senderRtid message) = some rt') (actorId : UInt32) :
    rt'.buffered actorId ≤ rt.buffered actorId := by
  have hentry := (message_adds hreach h).2 actorId
  rw [buffered, buffered]
  cases hid : rt'.actoridHtable actorId with
  | none => exact Nat.zero_le _
  | some ptr =>
    rcases hentry ptr hid with hold | hempty
    · rw [hold]
      exact buffer_step (sound_of_reachable hreach).blank h nofun
    · exact (congrArg List.length hempty).trans_le (Nat.zero_le _)

theorem added_le (hreach : (system σ τ).Reachable TransitionSystem.anyStep rt)
    (hapart : handleApart arrivals rt = some (last, added)) :
    added.length ≤ (arrivals.map fun arrival ↦ rt.demand arrival.2.2).sum := by
  induction arrivals generalizing rt added with
  | nil =>
    cases hapart
    exact Nat.zero_le _
  | cons arrival rest ih =>
    obtain ⟨mid, hmid, hrest⟩ := Option.bind_eq_some_iff.1 hapart
    obtain ⟨result, hresult, heq⟩ := Option.map_eq_some_iff.1 hrest
    cases heq
    have hempty : (system σ τ).Reachable TransitionSystem.anyStep (rt.withGb []) :=
      .next .beginControlBatch hreach trivial rfl
    have hadds : mid.gb.length ≤ 0 + rt.demand arrival.2.2 := (message_adds hempty hmid).1
    have hle (later : Arrival σ) : mid.demand later.2.2 ≤ rt.demand later.2.2 := by
      unfold demand
      split
      · exact buffered_message hempty hmid _
      · exact le_rfl
      · exact le_rfl
    have hnext : (system σ τ).Reachable TransitionSystem.anyStep mid :=
      .next (.message arrival.1 arrival.2.1 arrival.2.2) hempty trivial hmid
    have hlater := (ih hnext hresult).trans (List.sum_le_sum fun later _ ↦ hle later)
    rw [List.length_append, List.map_cons, List.sum_cons]
    omega

theorem processBatch_eq (hapart : handleApart arrivals rt = some (last, added)) :
    rt.processBatch arrivals = if added.length ≤ collectiveBufferSize then some (last.withGb added) else none := by
  have hempty : ([] : List (Packet × UInt16)).length ≤ collectiveBufferSize := Nat.zero_le _
  have hall := handleAll_eq arrivals rt hempty
  rw [hapart] at hall
  exact hall

/-- Messages that do not fault by themselves run to the end exactly when the packets they add are no more than
the giant batch has room for; all of them are then passed on once, in order and with their gates. In a reachable
state they are at most the packets that wait for the flow states among the messages, and one for every message
of a replica. -/
theorem giant_batch_passes_all_iff (gb : GiantBatch) (hapart : handleApart arrivals rt = some (last, added)) :
    (((∃ rt', rt.processBatch arrivals = some rt' ∧ rt'.gb = added) ∧
        ∃ gb', gb.clear.addAll added = some gb' ∧ gb'.passed = added) ↔ added.length ≤ collectiveBufferSize) ∧
      ((system σ τ).Reachable TransitionSystem.anyStep rt →
        added.length ≤ (arrivals.map fun arrival ↦ rt.demand arrival.2.2).sum) := by
  refine ⟨?_, fun hreach ↦ added_le hreach hapart⟩
  rw [processBatch_eq hapart]
  constructor
  · rintro ⟨⟨rt', hrt', -⟩, -⟩
    by_contra hover
    rw [if_neg hover] at hrt'
    cases hrt'
  · intro hfits
    obtain ⟨gb', hadd, hholds⟩ := gb.holds_clear.addAll hfits
    exact ⟨⟨_, if_pos hfits, rfl⟩, gb', hadd, hholds.passed_eq⟩

/-- The replica of this flow is sent its packets. -/
def replicaArrival : Arrival Unit :=
  (connected, 2, ⟨7, coordinatorActorId, 9, .replication FlowActor.blankHeader FlowActor.blankHeader
    (flowKeyOf (tcpPacket 5)) (fun _ ↦ ()) (tcpPacket 5)⟩)

theorem giant_batch_passes_all_replica : ∃ last gb',
    handleApart [replicaArrival] ((smallBoot []).addStorage 2) = some (last, [(tcpPacket 5, 1)]) ∧
      GiantBatch.addAll [(tcpPacket 5, 1)] (GiantBatch.clear ⟨fun _ ↦ [], fun _ ↦ 0, 3, 100⟩) = some gb' ∧
      gb'.passed = [(tcpPacket 5, 1)] := by
  have hrun : (handleApart [replicaArrival] ((smallBoot []).addStorage 2)).map Prod.snd =
      some [(tcpPacket 5, 1)] := by
    decide +kernel
  obtain ⟨⟨last, added⟩, hapart, rfl⟩ := Option.map_eq_some_iff.1 hrun
  obtain ⟨-, gb', hadd, hpassed⟩ :=
    (giant_batch_passes_all_iff ⟨fun _ ↦ [], fun _ ↦ 0, 3, 100⟩ hapart).1.2 (by decide)
  exact ⟨last, gb', hapart, hadd, hpassed⟩

/-- A replica, and a flow that migrates in with this many buffered packets. -/
structure Waiting (rt : Runtime Unit Unit) (count : ℕ) : Prop where
  reach : (system Unit Unit).Reachable TransitionSystem.anyStep rt
  replica : rt.htable (flowKeyOf (tcpPacket 5)) = some 1 ∧ (rt.actors 1).replicationState = .isReplica
  target : rt.htable (flowKeyOf (tcpPacket 6)) = some 2 ∧ rt.actoridHtable 4 = some 2
  state : (rt.actors 2).currentState = .migrationTarget ∧ (rt.actors 2).coordinatorSet = true ∧
    (rt.actors 2).chain = []
  buffered : (rt.actors 2).buffer.length = count
  free : rt.collectiveBuffer.curSize + count = collectiveBufferSize

theorem Waiting.next {rt : Runtime Unit Unit} {count : ℕ} (h : rt.Waiting count)
    (hcount : count < collectiveBufferSize) : ∃ rt' : Runtime Unit Unit, rt'.Waiting (count + 1) := by
  have hfree := h.free
  have hpop : ∃ cell ring, rt.collectiveBuffer.pop = some (cell, ring) ∧
      ring.curSize = rt.collectiveBuffer.curSize - 1 := by
    unfold RingBuffer.pop
    rw [dif_neg (by omega)]
    exact ⟨_, _, rfl, rfl⟩
  obtain ⟨cell, ring, hpop, hring⟩ := hpop
  let actor : FlowActor := { rt.actors 2 with
      pktCounter := (rt.actors 2).pktCounter + 1
      buffer := (rt.actors 2).buffer ++ [(cell, tcpPacket 6)] }
  have hprocess : rt.pktMigrationTargetProcessing 2 (tcpPacket 6) =
      { rt with collectiveBuffer := ring, actors := update rt.actors 2 actor } := by
    simp only [pktMigrationTargetProcessing, modifyActor, hpop, update_self, update_idem, actor]
  have hstep : rt.step (.packet connected (tcpPacket 6)) =
      some { rt with collectiveBuffer := ring, actors := update rt.actors 2 actor } := by
    rw [step, schedule, ← hprocess]
    simp only [h.target.1, pktMsg, h.state.1]
  have hself : update rt.actors 2 actor 2 = actor := update_self ..
  refine ⟨_, .next (.packet connected (tcpPacket 6)) h.reach trivial hstep, h.replica, h.target, ?_, ?_, ?_⟩
  · dsimp only
    rw [hself]
    exact h.state
  · dsimp only
    rw [hself, List.length_append, h.buffered]
    rfl
  · dsimp only
    omega

theorem exists_waiting {count : ℕ} (hcount : count ≤ collectiveBufferSize) :
    ∃ rt : Runtime Unit Unit, rt.Waiting count := by
  induction count with
  | zero =>
    let inputs : List (Input Unit) := [.addStorage 2, .message connected 2 replicaArrival.2.2,
      .message connected 2 ⟨7, coordinatorActorId, 9, .createMigrationTargetActor FlowActor.blankHeader
        FlowActor.blankHeader (flowKeyOf (tcpPacket 6))⟩]
    obtain ⟨rt, hrt, hreplica, htarget, hstate, hbuffered, hfree⟩ :
        ∃ rt ∈ (system Unit Unit).run (smallBoot []) inputs,
          (rt.htable (flowKeyOf (tcpPacket 5)) = some 1 ∧ (rt.actors 1).replicationState = .isReplica) ∧
          (rt.htable (flowKeyOf (tcpPacket 6)) = some 2 ∧ rt.actoridHtable 4 = some 2) ∧
          ((rt.actors 2).currentState = .migrationTarget ∧ (rt.actors 2).coordinatorSet = true ∧
            (rt.actors 2).chain = []) ∧
          (rt.actors 2).buffer.length = 0 ∧ rt.collectiveBuffer.curSize = collectiveBufferSize := by
      decide +kernel
    exact ⟨rt, .replay (init_smallBoot []) hrt, hreplica, htarget, hstate, hbuffered, hfree⟩
  | succ _ ih =>
    obtain ⟨rt, hwaiting⟩ := ih (Nat.le_of_succ_le hcount)
    exact hwaiting.next hcount

/-- Without network functions every packet of a buffer is added. -/
theorem replayBuffer_passThrough {rt : Runtime Unit Unit} {ptr : ℕ} (cells : List (ℕ × Packet))
    (hchain : (rt.actors ptr).chain = []) (hroom : rt.gb.length + cells.length ≤ collectiveBufferSize) :
    ∃ rt', rt.replayBuffer ptr cells = some rt' ∧ rt'.gb.length = rt.gb.length + cells.length ∧
      rt'.htable = rt.htable ∧ ∀ other ≠ ptr, rt'.actors other = rt.actors other := by
  induction cells generalizing rt with
  | nil => exact ⟨_, rfl, rfl, rfl, fun other hother ↦ update_of_ne hother _ _⟩
  | cons cell _ ih =>
    rw [List.length_cons] at hroom
    have hlt : rt.gb.length < collectiveBufferSize := by omega
    have hpacket : ∃ mid, rt.replayPacket ptr cell = some mid ∧ mid.gb.length = rt.gb.length + 1 ∧
        mid.htable = rt.htable ∧ (mid.actors ptr).chain = [] ∧
        ∀ other ≠ ptr, mid.actors other = rt.actors other := by
      rw [replayPacket, hchain]
      simp only [NfTable.runChain, if_true, addPktSetGate, if_pos hlt, Option.map_some]
      refine ⟨_, rfl, by simp [modifyActor], rfl, ?_, fun other hother ↦ update_of_ne hother _ _⟩
      simp [modifyActor, hchain]
    obtain ⟨mid, hmid, hgb, htable, hchain', hothers⟩ := hpacket
    obtain ⟨rt', hrest, hgb', htable', hothers'⟩ := ih hchain' (by omega)
    refine ⟨rt', ?_, ?_, htable'.trans htable, fun other hother ↦
      (hothers' other hother).trans (hothers other hother)⟩
    · rw [replayBuffer, hmid]
      exact hrest
    · rw [hgb', hgb, List.length_cons]
      omega

/-- The flow state arrives at the target of a full buffer. -/
def stateArrival : Arrival Unit := (connected, 2, ⟨7, 4, 11, .migrateFlowState fun _ ↦ ()⟩)

theorem Waiting.handle_state {rt : Runtime Unit Unit} (h : rt.Waiting collectiveBufferSize) :
    ∃ mid, handle stateArrival (rt.withGb []) = some mid ∧ mid.gb.length = collectiveBufferSize ∧
      mid.htable (flowKeyOf (tcpPacket 5)) = some 1 ∧ (mid.actors 1).replicationState = .isReplica := by
  have hreplay : ∀ ready : Runtime Unit Unit, (ready.actors 2).chain = [] → ready.gb = [] →
      ready.htable = rt.htable → ready.actors 1 = rt.actors 1 →
      ∃ mid, ready.replayBuffer 2 (rt.actors 2).buffer = some mid ∧ mid.gb.length = collectiveBufferSize ∧
        mid.htable (flowKeyOf (tcpPacket 5)) = some 1 ∧ (mid.actors 1).replicationState = .isReplica := by
    intro ready hchain hgb htable hother
    have hroom : ready.gb.length + (rt.actors 2).buffer.length = collectiveBufferSize := by
      rw [hgb, h.buffered]
      rfl
    obtain ⟨mid, hmid, hlength, htable', hothers⟩ := replayBuffer_passThrough _ hchain hroom.le
    refine ⟨mid, hmid, hlength.trans hroom, ?_, ?_⟩
    · rw [htable', htable]
      exact h.replica.1
    · rw [hothers 1 (by decide), hother]
      exact h.replica.2
  have hmessage : handle stateArrival (rt.withGb []) =
      (rt.withGb []).migrateFlowState connected 2 2 7 11 fun _ ↦ () := by
    change (rt.withGb []).matchMessage connected 2 ⟨7, 4, 11, .migrateFlowState fun _ ↦ ()⟩ = _
    rw [matchMessage, if_neg (by decide), actoridHtable_withGb, h.target.2]
    rfl
  rw [hmessage, migrateFlowState, actors_withGb, if_pos h.state.2.1]
  apply hreplay
  · simp [connected, modifyActor, addTail, h.state.2.2]
  · rfl
  · rfl
  · simp [connected, modifyActor, addTail]

theorem handle_replica {mid : Runtime Unit Unit} (hentry : mid.htable (flowKeyOf (tcpPacket 5)) = some 1)
    (hreplica : (mid.actors 1).replicationState = .isReplica) :
    ∃ last, handle replicaArrival (mid.withGb []) = some last ∧ last.gb = [(tcpPacket 5, 1)] := by
  have hmessage : handle replicaArrival (mid.withGb []) =
      (mid.withGb []).repFsPktMsg 1 (fun _ ↦ ()) (tcpPacket 5) := by
    change (mid.withGb []).replicationMsg _ _ _ _ _ _ = _
    rw [replicationMsg, htable_withGb, hentry]
  have hroom : 0 < collectiveBufferSize := by decide
  rw [hmessage, repFsPktMsg, actors_withGb, if_neg (not_not.2 hreplica)]
  exact ⟨_, if_pos hroom, rfl⟩

/-- A flow with a full buffer and one packet of a replica in one control batch: the last add is out of bounds.
-/
theorem giant_batch_overrun : ∃ (rt : Runtime Unit Unit) (last : Runtime Unit Unit) (added : List (Packet × UInt16)),
    (system Unit Unit).Reachable TransitionSystem.anyStep rt ∧
      handleApart [stateArrival, replicaArrival] rt = some (last, added) ∧ added.length = 1601 ∧
      rt.processBatch [stateArrival, replicaArrival] = none := by
  obtain ⟨rt, hwaiting⟩ := exists_waiting le_rfl
  obtain ⟨mid, hmid, hlength, hentry, hreplica⟩ := hwaiting.handle_state
  obtain ⟨last, hlast, hadded⟩ := handle_replica hentry hreplica
  have hapart : handleApart [stateArrival, replicaArrival] rt = some (last, mid.gb ++ (last.gb ++ [])) := by
    rw [handleApart, hmid, Option.bind_some, handleApart, hlast]
    rfl
  have hover : (mid.gb ++ (last.gb ++ [])).length = 1601 := by
    rw [List.append_nil, List.length_append, hlength, hadded]
    rfl
  refine ⟨rt, last, _, hwaiting.reach, hapart, hover, ?_⟩
  rw [processBatch_eq hapart, if_neg]
  rw [hover]
  decide

end Runtime

end NfvActor.Actor
