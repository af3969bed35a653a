import Mathlib.Data.List.Perm.Subperm
import StoreFeed.Proofs.Log
import StoreFeed.Proofs.Replica.Standing
import StoreFeed.Proofs.SortedMap

/-!
# The size of a log

The sums that a replica forms over the ends that it sampled are no larger than the log.
-/

namespace StoreFeed

open Decimal (maxWord64)

namespace Log

/-- How many records a log holds. -/
def size (log : Log) : Nat := Word.total (log.partitions.values.map List.length)

theorem size_eq (log : Log) :
    log.size = Word.total (log.partitions.keys.map fun tp => (log.records tp).length) := by
  rw [size, ← SortedMap.map_findD_keys log.partitions [], List.map_map]
  rfl

/-- Some partitions hold no more than all. -/
theorem total_le_size (log : Log) {tps : List TopicPartition} (distinct : tps.Nodup) :
    Word.total (tps.map fun tp => (log.records tp).length) ≤ log.size := by
  have nothing : ∀ tp, log.partitions.contains tp = false → (log.records tp).length = 0 := by
    intro tp unknown
    have none : log.partitions.find? tp = none := by simpa [SortedMap.contains] using unknown
    rw [records, SortedMap.findD, none]
    rfl
  rw [← Word.total_map_filter nothing, size_eq]
  obtain ⟨found, perm, among⟩ : (tps.filter log.partitions.contains).Subperm log.partitions.keys :=
    List.subperm_of_subset (distinct.filter _) fun tp htp =>
      SortedMap.mem_keys.mpr (List.mem_filter.mp htp).2
  rw [← Word.total_perm (perm.map _)]
  exact Word.total_le_of_sublist (among.map _)

theorem length_le_size (log : Log) (tp : TopicPartition) : (log.records tp).length ≤ log.size :=
  Nat.le_trans (Nat.le_add_right _ 0) (log.total_le_size (List.nodup_singleton tp))

/-- A log that grows holds more. -/
theorem Extends.size_le {log log' : Log} (h : log.Extends log') : log.size ≤ log'.size := by
  rw [log.size_eq]
  exact Nat.le_trans (Word.total_map_le fun tp _ => (h tp).length_le)
    (log'.total_le_size log.partitions.nodup_keys)

end Log

/-! ## Lag -/

namespace LagTracker

variable {t : LagTracker} (small : Word.total t.realTimeEnds.values ≤ maxWord64)
include small

theorem fits_of_small : t.realTimeTotal?.getD 0 ≤ maxWord64 := by
  refine Nat.le_trans t.realTimeTotal?_le ?_
  rw [← SortedMap.map_findD_keys t.realTimeEnds 0] at small
  rw [realTimeTotal, ← Word.total_eq_sum]
  exact Nat.le_trans (Word.total_map_le fun region _ => Nat.sub_le _ _) small

theorem not_heavy_of_small : ¬ t.Heavy := Nat.not_lt.mpr (fits_of_small small)

end LagTracker

/-- Ends that are no further than the topics go are small in a log that is not too large. -/
theorem ReplicaId.total_ends_le (id : ReplicaId) {log : Log}
    {ends : SortedMap (Option RegionId) Nat}
    (h : ∀ region n, ends.find? region = some n →
      n ≤ (log.records (id.realTimeTopic region)).length) :
    Word.total ends.values ≤ log.size := by
  have distinct : (ends.keys.map id.realTimeTopic).Nodup :=
    ends.nodup_keys.map fun _ _ same => congrArg TopicPartition.region same
  refine Nat.le_trans ?_ (log.total_le_size distinct)
  rw [← SortedMap.map_findD_keys ends 0, List.map_map]
  refine Word.total_map_le fun region _ => ?_
  show (ends.find? region).getD 0 ≤ (log.records (id.realTimeTopic region)).length
  cases known : ends.find? region with
  | none => exact Nat.zero_le _
  | some n => exact h region n known

end StoreFeed
