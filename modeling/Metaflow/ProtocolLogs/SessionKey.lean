import Metaflow.FlowGenerator.FlowIds

/-!
# The key of a session

The key of a request is meant to have the low byte of the time in the flow's
identifier, but the shift binds tighter than the mask: it has the high byte,
which stays the same for months.
-/

namespace Metaflow.ProtocolLogs

open AgentCommon FlowGenerator
open BitVec

/-- The protocols with the numbers that their messages carry. -/
inductive AppProtoLogsInfo where
  | dns (transId : BitVec 16)
  | mysql
  | redis
  | kafka (correlationId : BitVec 32)
  | mqtt
  | dubbo (serialId : BitVec 8) (requestId : BitVec 64)
  | httpV1 (streamId : BitVec 32)
  | httpV2 (streamId : BitVec 32)
  | httpV1TLS

structure AppProtoLogsData where
  flowId : BitVec 64
  specialInfo : AppProtoLogsInfo

/-- The `request_id` of `calc_key`. That of a Dubbo message is the number of
its serialization. -/
def AppProtoLogsInfo.keyId : AppProtoLogsInfo -> BitVec 32
  | .dns transId => transId.setWidth 32
  | .dubbo serialId _ => serialId.setWidth 32
  | .httpV1 streamId => streamId
  | .httpV2 streamId => streamId
  | .kafka correlationId => correlationId
  | _ => 0

def getUniqFlowIdInOneMinute (flowId : BitVec 64) : BitVec 64 :=
  (flowId >>> 32 &&& BitVec.ofNat 64 0xff <<< 24) ||| (flowId &&& counterFlowIdMask)

def calcKey (item : AppProtoLogsData) : BitVec 64 :=
  getUniqFlowIdInOneMinute item.flowId <<< 32 ||| item.specialInfo.keyId.setWidth 64

/-- The number by which the protocol tells its requests apart. -/
def AppProtoLogsInfo.requestId : AppProtoLogsInfo -> BitVec 64
  | .dubbo _ requestId => requestId
  | info => info.keyId.setWidth 64

theorem toNat_getUniqFlowIdInOneMinute (flowId : BitVec 64) :
    (getUniqFlowIdInOneMinute flowId).toNat =
      flowId.toNat / 0x100000000000000 * 0x1000000 + flowId.toNat % 0x1000000 := by
  have time : (flowId >>> 32 &&& BitVec.ofNat 64 0xff <<< 24).toNat =
      (flowId.toNat / 0x100000000000000) <<< 24 := by
    rw [BitVec.toNat_and, BitVec.toNat_ushiftRight, Nat.shiftRight_eq_div_pow, Nat.shiftLeft_eq]
    exact (and_highByte (by omega)).trans (congrArg (· * 0x1000000) (Nat.div_div_eq_div_mul ..))
  have counter := toNat_counter flowId.toNat
  rw [ofNat_toNat, setWidth_eq] at counter
  rw [getUniqFlowIdInOneMinute, toNat_or, time, counter, idCounter,
    ← Nat.shiftLeft_add_eq_or_of_lt (Nat.mod_lt _ (by decide)), Nat.shiftLeft_eq]

theorem toNat_calcKey (item : AppProtoLogsData) :
    (calcKey item).toNat = (item.flowId.toNat / 0x100000000000000 * 0x1000000 +
      item.flowId.toNat % 0x1000000) * 0x100000000 + item.specialInfo.keyId.toNat := by
  have small := item.specialInfo.keyId.isLt
  have id := toNat_getUniqFlowIdInOneMinute item.flowId
  rw [calcKey, toNat_or, toNat_shiftLeft, id, Nat.shiftLeft_eq,
    toNat_setWidth_of_le (by decide), Nat.mod_eq_of_lt (by omega), ← Nat.shiftLeft_eq,
    ← Nat.shiftLeft_add_eq_or_of_lt small]

/-- Items share a key exactly if the high bytes of the times, the counters and
the numbers agree. -/
theorem calcKey_eq_iff (first second : AppProtoLogsData) :
    calcKey first = calcKey second ↔
      first.flowId.toNat / 0x100000000000000 = second.flowId.toNat / 0x100000000000000 ∧
        first.flowId.toNat % 0x1000000 = second.flowId.toNat % 0x1000000 ∧
        first.specialInfo.keyId = second.specialInfo.keyId := by
  have small := first.specialInfo.keyId.isLt
  have small' := second.specialInfo.keyId.isLt
  rw [← toNat_inj, toNat_calcKey, toNat_calcKey, ← toNat_inj]
  omega

/-- Items of flows of one thread share a key only within one request of one
flow, exactly if equal high bytes of the times, counters and numbers come with
equal times and requests. -/
theorem calcKey_separates_iff (first second : AppProtoLogsData) (thread : BitVec 32)
    (opened opened' : Duration) (number number' : Nat)
    (isFirst : first.flowId = generateFlowId opened thread number)
    (isSecond : second.flowId = generateFlowId opened' thread number') :
    (calcKey first = calcKey second -> first.flowId = second.flowId ∧
        first.specialInfo.requestId = second.specialInfo.requestId) ↔
      (idUnit opened / 0x1000000 = idUnit opened' / 0x1000000 ->
        idCounter number = idCounter number' ->
        first.specialInfo.keyId = second.specialInfo.keyId ->
        idUnit opened = idUnit opened' ∧
          first.specialInfo.requestId = second.specialInfo.requestId) := by
  have small : idCounter number < 0x1000000 := Nat.mod_lt _ (by decide)
  have small' : idCounter number' < 0x1000000 := Nat.mod_lt _ (by decide)
  have threadSmall := thread.isLt
  have sameId : generateFlowId opened thread number = generateFlowId opened' thread number' ↔
      idUnit opened = idUnit opened' ∧ idCounter number = idCounter number' := by
    rw [← toNat_inj, toNat_generateFlowId_eq, toNat_generateFlowId_eq]
    omega
  rw [calcKey_eq_iff, and_imp, and_imp, isFirst, isSecond, sameId, toNat_generateFlowId_eq,
    toNat_generateFlowId_eq]
  refine imp_congr (by omega) (imp_congr_ctx (by omega) fun same => imp_congr_right fun _ => ?_)
  rw [and_iff_left same]

/-- Two requests of one flow. -/
theorem calcKey_separates_dns :
    (AppProtoLogsInfo.dns 1).requestId ≠ (AppProtoLogsInfo.dns 2).requestId ∧
      calcKey ⟨generateFlowId 0 1 7, .dns 1⟩ ≠ calcKey ⟨generateFlowId 0 1 7, .dns 2⟩ := by
  refine ⟨by decide, fun same => ?_⟩
  have separate := (calcKey_separates_iff ⟨generateFlowId 0 1 7, .dns 1⟩
    ⟨generateFlowId 0 1 7, .dns 2⟩ 1 0 0 7 7 rfl rfl).mpr (by decide) same
  exact absurd separate.2 (by decide)

/-- Flows opened two seconds apart, and two Dubbo requests of one flow. -/
theorem calcKey_shared :
    (calcKey ⟨generateFlowId 0 1 7, .dns 1⟩ = calcKey ⟨generateFlowId 2000000000 1 7, .dns 1⟩ ∧
      generateFlowId 0 1 7 ≠ generateFlowId 2000000000 1 7) ∧
    calcKey ⟨generateFlowId 0 1 7, .dubbo 2 1⟩ = calcKey ⟨generateFlowId 0 1 7, .dubbo 2 2⟩ ∧
      (AppProtoLogsInfo.dubbo 2 1).requestId ≠ (AppProtoLogsInfo.dubbo 2 2).requestId := by
  decide

end Metaflow.ProtocolLogs
