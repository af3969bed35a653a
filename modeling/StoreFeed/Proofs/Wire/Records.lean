import StoreFeed.Proofs.Json.Decoder
import StoreFeed.Wire.Checkpoint

/-!
# Records and checkpoints are read as they were written

Every part of a record has a written form from which its decoder reads the same part again:
positions, payloads, and each operation of an update, those that carry nothing, null or nothing but
empty lists among them. Values have to be without floats, in key order and with integers of 64 bits;
how deep they nest is bounded by what a decoder may enter, which only the values of an update can
exceed.
-/

namespace StoreFeed

open Json

/-! ## Bytes and regions -/

theorem toList_loop (b : ByteArray) (i : Nat) (front : List UInt8) :
    ByteArray.toList.loop b i front = front.reverse ++ b.data.toList.drop i := by
  fun_induction ByteArray.toList.loop b i front with
  | case1 i front more ih =>
    have size : i < b.data.toList.length := more
    have item : b.get! i = b.data.toList[i] := by simp [ByteArray.get!, getElem!_pos b.data i more]
    rw [ih, List.reverse_cons, List.append_assoc, List.singleton_append,
      List.drop_eq_getElem_cons size, item]
  | case2 i front done =>
    rw [List.drop_eq_nil_of_le (Nat.le_of_not_lt done), List.append_nil]

/-- Bytes are read from the array of their numbers. -/
theorem reads_bytes (b : ByteArray) : Decoder.bytes.Reads (bytesToJson b) b := by
  have read : (Decoder.list (Decoder.nat 255)).Reads
      (.arr ((b.toList.map UInt8.toNat).map Value.nat)) (b.toList.map UInt8.toNat) := by
    refine Decoder.reads_list fun n among => ?_
    obtain ⟨x, -, rfl⟩ := List.mem_map.mp among
    exact Decoder.reads_nat (Nat.le_of_lt_succ x.toNat_lt) (by decide)
  rw [List.map_map] at read
  have same : Nat.toUInt8 ∘ UInt8.toNat = id := funext fun x => UInt8.ofNat_toNat
  have whole : ByteArray.mk ((b.toList.map UInt8.toNat).map Nat.toUInt8).toArray = b := by
    rw [List.map_map, same, List.map_id, ByteArray.toList, toList_loop]
    rfl
  intro depth deep
  replace read := read depth deep
  rw [Value.tree] at read
  rw [bytesToJson, Value.tree, Decoder.bytes]
  · exact (congrArg _ read).trans (congrArg some whole)
  · simp

theorem reads_region (region : Option RegionId) :
    (Decoder.option Decoder.word32).Reads (regionToJson region) region := by
  cases region with
  | none => exact Decoder.reads_none
  | some r => exact Decoder.reads_some (Decoder.reads_word32 r) (by
      simp [regionToJson, Value.ofOption, Value.nat, Value.tree])

/-! ## Updates -/

namespace FieldUpdate

/-- Whether the objects that an operation carries are in key order. -/
def InKeyOrder : FieldUpdate → Prop
  | .set value => value.Ordered
  | .noOp => True
  | .listOps add remove => Value.OrderedItems add ∧ Value.OrderedItems remove
  | .mapOps put _ => (Value.obj put).Ordered

/-- An operation that carries something. -/
theorem reads_operation {name : String} {content : Value} {args : Decoder FieldUpdate}
    {op : FieldUpdate} (known : argsDecoder? name = some args) (h : args.Reads content op) :
    decoder.Reads (.obj [("op", .str name), ("args", content)]) op := by
  refine Decoder.reads_record (by simp) (by simp) fun depth deep => ?_
  have label : (Decoder.written [("op", .str name), ("args", content)] depth).required "op"
      (Decoder.enumeration some) = some name :=
    Decoder.required_written deep "op" rfl (Decoder.reads_enumeration rfl)
  have carried : (Decoder.written [("op", .str name), ("args", content)] depth).get? "args" =
      some content.tree := Decoder.get?_written _ depth "args"
  have behind : (Decoder.written [("op", .str name), ("args", content)] depth).ahead "args" "op" =
      false := rfl
  rw [if_pos (show (Decoder.written _ depth).named = true from rfl), label]
  simp only [Option.bind_eq_bind, Option.bind_some, known, carried, behind,
    Bool.false_and, Bool.false_eq_true, if_false]
  exact h depth (Nat.le_trans (Decoder.depth_le_of_lookup "args" rfl) deep)

theorem reads (op : FieldUpdate) (integral : op.toJson.Integral) (ordered : op.InKeyOrder) :
    decoder.Reads op.toJson op := by
  cases op with
  | set value =>
    exact reads_operation rfl ((Decoder.reads_value value integral.2.1 ordered).map FieldUpdate.set)
  | noOp =>
    refine Decoder.reads_record (by simp) (by simp) fun depth deep => ?_
    have label : (Decoder.written [("op", .str "no_op")] depth).required "op"
        (Decoder.enumeration some) = some "no_op" :=
      Decoder.required_written deep "op" rfl (Decoder.reads_enumeration rfl)
    rw [if_pos (show (Decoder.written _ depth).named = true from rfl), label]
    rfl
  | listOps add remove =>
    obtain ⟨-, ⟨integralAdd, integralRemove, -⟩, -⟩ := integral
    refine reads_operation rfl (Decoder.reads_namedRecord (by simp) (by simp) fun depth deep => ?_)
    have added := Decoder.withDefault_written deep "add" rfl
      (Decoder.reads_values integralAdd ordered.1) []
    have removed := Decoder.withDefault_written deep "remove" rfl
      (Decoder.reads_values integralRemove ordered.2) []
    rw [added, removed]
    rfl
  | mapOps put remove =>
    obtain ⟨-, ⟨integralPut, integralRemove, -⟩, -⟩ := integral
    refine reads_operation rfl (Decoder.reads_namedRecord (by simp) (by simp) fun depth deep => ?_)
    have entries := (Decoder.reads_valueMembers integralPut ordered.2).map Entries.ofList
    rw [Entries.ofList_of_sorted ordered.1] at entries
    have set := Decoder.withDefault_written deep "put" rfl entries []
    have removed := Decoder.withDefault_written deep "remove" rfl
      (Decoder.reads_list fun s _ => Decoder.reads_string s) []
    rw [set, removed]
    rfl

end FieldUpdate

/-- An update is read operation by operation. -/
theorem PartialUpdate.reads (u : PartialUpdate) (integral : u.toJson.Integral)
    (ordered : ∀ e ∈ u.entries, e.2.InKeyOrder) : decoder.Reads u.toJson u := by
  refine Decoder.reads_table fun e among => FieldUpdate.reads e.2 ?_ (ordered e among)
  exact Value.integralMembers_iff.mp integral (e.1, e.2.toJson) (List.mem_map.mpr ⟨e, among, rfl⟩)

/-! ## Records -/

theorem ControlMessage.reads (m : ControlMessage) : decoder.Reads m.toJson m := by
  cases m <;> exact Decoder.reads_enumeration rfl

namespace Payload

/-- Whether the objects that a payload carries are in key order. -/
def InKeyOrder : Payload → Prop
  | .update u => ∀ e ∈ u.entries, e.2.InKeyOrder
  | _ => True

theorem reads (p : Payload) (integral : p.toJson.Integral) (ordered : p.InKeyOrder) :
    decoder.Reads p.toJson p := by
  cases p with
  | put value =>
    exact Decoder.reads_variant fun depth deep => congrArg (Option.map put)
      (reads_bytes value depth deep)
  | delete => exact Decoder.reads_variant_alone rfl
  | update u =>
    exact Decoder.reads_variant fun depth deep =>
      congrArg (Option.map update) (u.reads integral.1 ordered depth deep)
  | control m =>
    exact Decoder.reads_variant fun depth deep => congrArg (Option.map control) (m.reads depth deep)

end Payload

theorem RealTimePosition.reads (o : RealTimePosition) (integral : o.toJson.Integral) :
    decoder.Reads o.toJson o := by
  refine Decoder.reads_record (by simp) (by simp) fun depth deep => ?_
  have region := Decoder.optional_written deep "region" rfl (reads_region o.region)
  have offset := Decoder.required_written deep "offset" rfl (Decoder.reads_word64 integral.2.1)
  rw [region, offset]
  rfl

theorem ChangeRecord.reads (r : ChangeRecord) (integral : r.toJson.Integral)
    (ordered : r.payload.InKeyOrder) : decoder.Reads r.toJson r := by
  obtain ⟨offset, timestamp, key, payload, origin⟩ := r
  refine Decoder.reads_record (by cases origin <;> simp)
    (by cases origin <;> simp) fun depth deep => ?_
  have place := Decoder.required_written deep "offset" rfl (Decoder.reads_word64 integral.1)
  have time := Decoder.required_written deep "timestamp" rfl (Decoder.reads_word64 integral.2.1)
  have bytes := Decoder.required_written deep "key" rfl (reads_bytes key)
  have carried := Decoder.required_written deep "payload" rfl
    (payload.reads integral.2.2.2.1 ordered)
  rw [place, time, bytes, carried]
  cases origin with
  | none => rfl
  | some o =>
    have solid : o.toJson.tree ≠ .null := by simp [RealTimePosition.toJson, Value.tree]
    have source := Decoder.withDefault_written deep "upstream" rfl
      (Decoder.reads_some (o.reads integral.2.2.2.2.1) solid) none
    rw [source]
    rfl

theorem Checkpoint.reads (c : Checkpoint) (integral : c.toJson.Integral) :
    decoder.Reads c.toJson c := by
  obtain ⟨integralOffset, -, -, integralPlaces, -⟩ := integral
  refine Decoder.reads_record (by simp [fieldNames]) (by simp) fun depth deep => ?_
  have offset := Decoder.required_written deep "version_topic_offset" rfl
    (Decoder.reads_word64 integralOffset)
  have ended := Decoder.withDefault_written deep "end_of_push_received" rfl
    (Decoder.reads_bool c.endOfPush) false
  have started := Decoder.withDefault_written deep "start_of_buffer_replay_received" rfl
    (Decoder.reads_bool c.startOfBufferReplay) false
  have places := Decoder.withDefault_written deep "upstream" rfl
    (Decoder.reads_list fun o among => RealTimePosition.reads o
      (Value.integralItems_iff.mp integralPlaces o.toJson (List.mem_map_of_mem among))) []
  rw [offset, ended, started, places]
  rfl

theorem RealTimePosition.depth_toJson (o : RealTimePosition) : o.toJson.depth = 1 := by
  obtain ⟨region, offset⟩ := o
  cases region <;> rfl

/-- A checkpoint nests in three levels. -/
theorem Checkpoint.depth_toJson (c : Checkpoint) : c.toJson.depth ≤ maxDepth := by
  have places : Value.depthItems (c.realTime.map RealTimePosition.toJson) ≤ 1 := by
    refine Value.depthItems_le fun v among => ?_
    obtain ⟨o, -, rfl⟩ := List.mem_map.mp among
    exact Nat.le_of_eq o.depth_toJson
  simp only [toJson, Value.depth, Value.depthMembers, Value.nat, maxDepth]
  omega

/-- A record whose numbers are integers of 64 bits, whose objects are in key order and that nests no
deeper than what is read, is read back from its text and from the bytes of its text. So is every
checkpoint of offsets of 64 bits. -/
theorem read_as_written :
    (∀ r : ChangeRecord, r.toJson.Integral → r.payload.InKeyOrder → r.toJson.depth ≤ maxDepth →
      ChangeRecord.decoder.run r.toJson.render = some r ∧
      ChangeRecord.decoder.runBytes r.toJson.toBytes = some r) ∧
    ∀ c : Checkpoint, c.toJson.Integral →
      Checkpoint.decoder.run c.toJson.render = some c ∧
      Checkpoint.decoder.runBytes c.toJson.toBytes = some c :=
  ⟨fun r integral ordered deep => (r.reads integral ordered).run integral deep,
    fun c integral => (c.reads integral).run integral c.depth_toJson⟩

/-- A record with each operation that carries nothing, null, or nothing but empty lists and maps. -/
def sparseRecord : ChangeRecord where
  offset := 7
  timestamp := 1700000000000
  key := ⟨#[107, 0, 255]⟩
  payload := .update
    ⟨[("a", .set .null), ("b", .noOp), ("c", .listOps [] []), ("d", .mapOps [] [])], by
      simp only [Entries.Sorted]
      decide⟩
  origin := some ⟨some 2, 18446744073709551615⟩

/-- A checkpoint with a place in a topic of no region. -/
def sparseCheckpoint : Checkpoint where
  versionOffset := 18446744073709551615
  endOfPush := true
  startOfBufferReplay := false
  realTime := [⟨none, 0⟩, ⟨some 2, 5⟩]

theorem sparse_read_as_written :
    ChangeRecord.decoder.run sparseRecord.toJson.render = some sparseRecord ∧
      Checkpoint.decoder.run sparseCheckpoint.toJson.render = some sparseCheckpoint := by
  refine ⟨(read_as_written.1 sparseRecord ?_ ?_ ?_).1, (read_as_written.2 sparseCheckpoint ?_).1⟩
  · simp [sparseRecord, ChangeRecord.toJson, Payload.toJson,
      PartialUpdate.toJson, FieldUpdate.toJson,
      bytesToJson, ByteArray.toList, toList_loop, RealTimePosition.toJson,
        regionToJson, Value.ofOption,
      Value.nat, Value.Integral, Value.IntegralMembers, Value.IntegralItems, Decimal.maxWord64]
  · simp [sparseRecord, Payload.InKeyOrder, FieldUpdate.InKeyOrder,
      Value.Ordered, Value.OrderedItems, Value.OrderedMembers, Entries.Sorted]
  · simp [sparseRecord, ChangeRecord.toJson, Payload.toJson,
      PartialUpdate.toJson, FieldUpdate.toJson,
      bytesToJson, ByteArray.toList, toList_loop, RealTimePosition.toJson,
        regionToJson, Value.ofOption,
      Value.nat, Value.depth, Value.depthMembers, Value.depthItems, maxDepth]
  · simp [sparseCheckpoint, Checkpoint.toJson, RealTimePosition.toJson,
      regionToJson, Value.ofOption,
      Value.nat, Value.Integral, Value.IntegralMembers, Value.IntegralItems, Decimal.maxWord64]

end StoreFeed
