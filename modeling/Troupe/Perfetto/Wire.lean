import Troupe.Lib.Varint
import Troupe.Perfetto.Project

/-! # Packets on the wire

The encoding `schema.rs` of the Perfetto exporter derives for its messages: the fields of a message
in the order of their tags, each a key and a value. A trace is its packets, each a field of the
message `Trace`.

* `optional` fields that are absent are left out, and a oneof is the field that is set.
* A number is at most 64 bits wide, and a negative one is encoded as its two's complement. -/

namespace Troupe.Perfetto

open Troupe.Lib Troupe.Core

/-! ## Fields -/

/-- `WireType`. -/
inductive WireType where
  | varint
  | sixtyFourBit
  | lengthDelimited
deriving DecidableEq

/-- The number of a wire type. -/
def WireType.number : WireType → Nat
  | .varint => 0
  | .sixtyFourBit => 1
  | .lengthDelimited => 2

/-- `encode_key`. -/
def encodeKey (tag : Nat) (wireType : WireType) : List UInt8 :=
  encodeVarint (tag <<< 3 ||| wireType.number)

/-- A field of a number. -/
def varintField (tag value : Nat) : List UInt8 := encodeKey tag .varint ++ encodeVarint value

/-- A number of eight bytes, the lowest first. -/
def fixedBytes (value : Nat) : List UInt8 :=
  (List.range 8).map fun index => UInt8.ofNat (value >>> (8 * index) % 256)

/-- A field of eight bytes. -/
def fixedField (tag value : Nat) : List UInt8 := encodeKey tag .sixtyFourBit ++ fixedBytes value

/-- A field of so many bytes. -/
def lengthField (tag : Nat) (payload : List UInt8) : List UInt8 :=
  encodeKey tag .lengthDelimited ++ encodeVarint payload.length ++ payload

/-- The bytes of a text. -/
def utf8Bytes (text : String) : List UInt8 := text.toByteArray.data.toList

/-- A field of a text. -/
def stringField (tag : Nat) (text : String) : List UInt8 := lengthField tag (utf8Bytes text)

/-- An `i64` as a `u64`. -/
def twosComplement (value : Int) : Nat := (value % 2 ^ 64).toNat

/-- A field that may be absent. -/
def optionalField {α : Type} (encode : α → List UInt8) (value : Option α) : List UInt8 :=
  value.toList.flatMap encode

/-! ## Messages -/

/-- The number of a type of events. -/
def TrackEventType.number : TrackEventType → Nat
  | .unspecified => 0
  | .sliceBegin => 1
  | .sliceEnd => 2
  | .instant => 3
  | .counter => 4

/-- The value of an annotation. -/
def encodeAnnotationValue : AnnotationValue → List UInt8
  | .bool value => varintField 2 (if value then 1 else 0)
  | .uint value => varintField 3 value
  | .int value => varintField 4 (twosComplement value)
  | .string value => stringField 6 value

/-- The encoding of a `DebugAnnotation`. -/
def encodeDebugAnnotation (note : DebugAnnotation) : List UInt8 :=
  optionalField encodeAnnotationValue note.value ++ optionalField (stringField 10) note.name

/-- The value of a counter. -/
def encodeCounterValue : ExactCounterValue → List UInt8
  | .integer value => varintField 30 (twosComplement value)
  | .double value => fixedField 44 value.toBits.toNat

/-- The encoding of a `TrackEvent`. -/
def encodeTrackEvent (event : TrackEvent) : List UInt8 :=
  (event.debugAnnotations.flatMap fun note => lengthField 4 ( encodeDebugAnnotation note)) ++
    optionalField (fun type => varintField 9 type.number) event.type ++
    optionalField (varintField 11) event.trackUuid ++
    optionalField (stringField 23) event.name ++
    optionalField encodeCounterValue event.counterValue ++
    event.flowIds.flatMap (fixedField 47) ++
    event.terminatingFlowIds.flatMap (fixedField 48)

/-- The encoding of a `TrackDescriptor`; a `CounterDescriptor` has no fields. -/
def encodeTrackDescriptor (descriptor : TrackDescriptor) : List UInt8 :=
  optionalField (varintField 1) descriptor.uuid ++
    optionalField (stringField 2) descriptor.name ++
    optionalField (varintField 5) descriptor.parentUuid ++
    if descriptor.counter then lengthField 8 [] else []

/-- The field of the data of a packet. -/
def encodePacketData : PacketData → List UInt8
  | .trackEvent event => lengthField 11 (encodeTrackEvent event)
  | .trackDescriptor descriptor => lengthField 60 (encodeTrackDescriptor descriptor)

/-- The encoding of a `TracePacket`. -/
def encodeTracePacket (packet : TracePacket) : List UInt8 :=
  optionalField (varintField 8) packet.timestamp ++
    optionalField (varintField 10) packet.trustedPacketSequenceId ++
    optionalField encodePacketData packet.data ++
    optionalField (varintField 58) packet.timestampClockId

/-- `encode_trace_packet_fragment`. -/
def encodeTracePacketFragment (packet : TracePacket) : List UInt8 :=
  lengthField 1 (encodeTracePacket packet)

/-! ## Lengths -/

theorem length_le_flatMap {α : Type} (encode : α → List UInt8) {items : List α} {item : α}
    (h : item ∈ items) : (encode item).length ≤ (items.flatMap encode).length := by
  rw [List.flatMap_def]
  exact (List.sublist_flatten_of_mem (List.mem_map_of_mem h)).length_le

end Troupe.Perfetto
