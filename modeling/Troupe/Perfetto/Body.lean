import Troupe.Perfetto.Wire

/-! # The body of a trace

`TraceBodyValidator` of `dump.rs`: what the client that receives an exported trace checks while the
bytes come in, in any portions. A body is accepted when its packets are those of one export and
none is longer than the limit (**`validateBody_eq_ok_iff`**).

* `decode` is `TracePacket::decode`, of which the text of an error is kept.
* `usize` has 64 bits, and the buffer of a packet can be allocated. -/

namespace Troupe.Perfetto

open Troupe.Lib Troupe.Core

/-! ## The validator -/

/-- `MAX_TRACE_PACKET_BYTES`. -/
def maxTracePacketBytes : Nat := 64 * 1024 * 1024

/-- `TraceBodyValidationError`. -/
structure TraceBodyValidationError where
  code : String
  detail : String
deriving DecidableEq

/-- `invalid_trace_body`. -/
def invalidTraceBody (detail : String) : TraceBodyValidationError := ⟨"body_invalid", detail⟩

/-- `TraceBodyState`. -/
inductive TraceBodyState where
  | topLevelKey
  | packetLength
  | packetPayload
deriving DecidableEq

/-- `StreamingVarint`. -/
abbrev StreamingVarint := VarintReader

/-- The error of a varint. -/
def varintError : VarintError → TraceBodyValidationError
  | .overflow => invalidTraceBody "protobuf varint overflows u64"
  | .tooLong => invalidTraceBody "protobuf varint is too long"

/-- `TraceBodyValidator`. -/
structure TraceBodyValidator where
  state : TraceBodyState
  varint : StreamingVarint
  packetRemaining : Nat
  packet : List UInt8
  packetCount : Nat
  expectedMetadataTrackName : String
  metadataDescriptorCount : Nat

/-- `name.starts_with(TRACE_METADATA_PREFIX)`. -/
def startsWithMetadata (name : String) : Bool :=
  traceMetadataPrefix.toList.isPrefixOf name.toList

namespace TraceBodyValidator

/-- `TraceBodyValidator::new`. -/
def new (metadata : ProjectionMetadata) : TraceBodyValidator :=
  ⟨.topLevelKey, .empty, 0, [], 0, metadata.metadataTrackName, 0⟩

/-- What `finish_packet` checks of the name of a descriptor. -/
def checkName (validator : TraceBodyValidator) (name : String) :
    Except TraceBodyValidationError TraceBodyValidator :=
  if startsWithMetadata name = false then .ok validator
  else if name ≠ validator.expectedMetadataTrackName then
    .error ⟨"body_metadata_mismatch", "trace Troupe metadata differs from the response headers"⟩
  else
    match checkedAdd 255 validator.metadataDescriptorCount 1 with
    | none => .error (invalidTraceBody "trace metadata count overflows")
    | some count =>
      if 1 < count then
        .error ⟨"body_metadata_duplicate",
          "trace body contains more than one Troupe metadata descriptor"⟩
      else .ok { validator with metadataDescriptorCount := count }

/-- What `finish_packet` checks of a decoded packet. -/
def checkPacket (validator : TraceBodyValidator) (packet : TracePacket) :
    Except TraceBodyValidationError TraceBodyValidator :=
  if packet.trustedPacketSequenceId ≠ some 1 then
    .error (invalidTraceBody "trace packet must use trusted_packet_sequence_id=1")
  else
    match packet.data with
    | none => .error (invalidTraceBody "trace packet contains no descriptor or event")
    | some (.trackDescriptor descriptor) =>
      if packet.timestamp.isSome ∨ packet.timestampClockId.isSome then
        .error (invalidTraceBody "trace descriptor packet must not carry a timestamp")
      else
        match descriptor.name with
        | none => .ok validator
        | some name => validator.checkName name
    | some (.trackEvent _) =>
      if packet.timestamp.isNone ∨ packet.timestampClockId ≠ some traceFileClock then
        .error (invalidTraceBody
          "trace event packet must carry a timestamp with trace-file clock 11")
      else .ok validator

variable (decode : List UInt8 → Except String TracePacket)

/-- `finish_packet`. -/
def finishPacket (validator : TraceBodyValidator) :
    Except TraceBodyValidationError TraceBodyValidator := do
  let packet ← (decode validator.packet).mapError fun error =>
    invalidTraceBody ("trace packet protobuf is invalid: " ++ error)
  let validator ← validator.checkPacket packet
  match checkedAdd u64Max validator.packetCount 1 with
  | none => .error (invalidTraceBody "trace packet count overflows u64")
  | some count => .ok { validator with packetCount := count, state := .topLevelKey }

/-- What is done with the key of a field. -/
def takeKey (validator : TraceBodyValidator) (key : Nat) :
    Except TraceBodyValidationError TraceBodyValidator :=
  if key >>> 3 ≠ 1 ∨ key &&& 0x07 ≠ 2 then
    .error (invalidTraceBody "trace body contains a field other than repeated Trace.packet")
  else .ok { validator with state := .packetLength }

/-- What is done with the length of a packet. -/
def takeLength (validator : TraceBodyValidator) (length : Nat) :
    Except TraceBodyValidationError TraceBodyValidator :=
  if maxTracePacketBytes < length then
    .error ⟨"body_packet_too_large", "trace packet has " ++ toString length ++
      " bytes, limit is " ++ toString maxTracePacketBytes⟩
  else
    let validator := { validator with packetRemaining := length, packet := [] }
    if length = 0 then validator.finishPacket decode
    else .ok { validator with state := .packetPayload }

/-- What `push` does with one byte. -/
def pushByte (validator : TraceBodyValidator) (byte : UInt8) :
    Except TraceBodyValidationError TraceBodyValidator :=
  match validator.state with
  | .topLevelKey =>
    match validator.varint.push byte with
    | .error error => .error (varintError error)
    | .ok (none, varint) => .ok { validator with varint := varint }
    | .ok (some key, varint) => { validator with varint := varint }.takeKey key
  | .packetLength =>
    match validator.varint.push byte with
    | .error error => .error (varintError error)
    | .ok (none, varint) => .ok { validator with varint := varint }
    | .ok (some length, varint) => { validator with varint := varint }.takeLength decode length
  | .packetPayload =>
    let validator := { validator with
      packet := validator.packet ++ [byte]
      packetRemaining := validator.packetRemaining - 1 }
    if validator.packetRemaining = 0 then validator.finishPacket decode else .ok validator

/-- `push`. -/
def push (validator : TraceBodyValidator) (bytes : List UInt8) :
    Except TraceBodyValidationError TraceBodyValidator :=
  bytes.foldlM (pushByte decode) validator

/-- `finish`. -/
def finish (validator : TraceBodyValidator) : Except TraceBodyValidationError Unit :=
  if validator.packetCount = 0 then
    .error (invalidTraceBody "trace body contains no Trace.packet")
  else if validator.state ≠ .topLevelKey ∨ validator.varint.shift ≠ 0 then
    .error (invalidTraceBody "trace body ends in an incomplete protobuf field")
  else if validator.metadataDescriptorCount ≠ 1 then
    .error ⟨"body_metadata_missing",
      "trace body does not contain its Troupe metadata descriptor"⟩
  else .ok ()

end TraceBodyValidator

/-- A body that comes in in these portions is validated. -/
def validateBody (decode : List UInt8 → Except String TracePacket) (metadata : ProjectionMetadata)
    (chunks : List (List UInt8)) : Except TraceBodyValidationError Unit := do
  let validator ← chunks.foldlM (TraceBodyValidator.push decode) (.new metadata)
  validator.finish

/-! ## One packet -/

section Packets

variable (decode : List UInt8 → Except String TracePacket) (validator : TraceBodyValidator)

/-- The validator stands before a packet. -/
structure Awaiting (validator : TraceBodyValidator) : Prop where
  state : validator.state = .topLevelKey
  varint : validator.varint = .empty

theorem readsVarint_key (hstate : validator.state = .topLevelKey) :
    ReadsVarint (TraceBodyValidator.pushByte decode)
      (fun reader => { validator with varint := reader })
      (fun key => { validator with varint := .empty }.takeKey key) varintError := by
  intro reader byte
  unfold TraceBodyValidator.pushByte
  dsimp only
  rw [hstate]
  dsimp only
  cases hpush : reader.push byte with
  | error error => rfl
  | ok result =>
    obtain ⟨value, next⟩ := result
    cases value with
    | none => rfl
    | some value =>
      have hnext : next = .empty := reader.push_some hpush
      rw [hnext]

theorem readsVarint_length (hstate : validator.state = .packetLength) :
    ReadsVarint (TraceBodyValidator.pushByte decode)
      (fun reader => { validator with varint := reader })
      (fun length => { validator with varint := .empty }.takeLength decode length) varintError := by
  intro reader byte
  unfold TraceBodyValidator.pushByte
  dsimp only
  rw [hstate]
  dsimp only
  cases hpush : reader.push byte with
  | error error => rfl
  | ok result =>
    obtain ⟨value, next⟩ := result
    cases value with
    | none => rfl
    | some value =>
      have hnext : next = .empty := reader.push_some hpush
      rw [hnext]

/-- **The key and the length of a packet are read.** -/
theorem push_header {validator : TraceBodyValidator} (h : Awaiting validator) {length : Nat} (hlength : length < 2 ^ 64)
    (rest : List UInt8) :
    validator.push decode (encodeKey 1 .lengthDelimited ++ encodeVarint length ++ rest) =
      ({ validator with state := .packetLength }.takeLength decode length >>= fun next =>
        next.push decode rest) := by
  have hkey := (readsVarint_key decode validator h.state).foldlM_encodeVarint
    (show 1 <<< 3 ||| WireType.lengthDelimited.number < 2 ^ 64 by decide)
  have hlen := (readsVarint_length decode
    { validator with state := .packetLength } rfl).foldlM_encodeVarint hlength
  dsimp only at hkey hlen
  rw [← h.varint] at hkey hlen
  unfold TraceBodyValidator.push encodeKey
  rw [List.append_assoc, List.foldlM_append, hkey]
  have htake : { validator with varint := validator.varint }.takeKey
      (1 <<< 3 ||| WireType.lengthDelimited.number) =
        .ok { validator with state := .packetLength } := by
    unfold TraceBodyValidator.takeKey
    rw [if_neg (by decide)]
  rw [htake, ok_bind, List.foldlM_append, hlen]

/-- A byte of a packet. -/
theorem pushByte_payload (hstate : validator.state = .packetPayload) (byte : UInt8) :
    validator.pushByte decode byte =
      if validator.packetRemaining - 1 = 0 then
        { validator with
          packet := validator.packet ++ [byte], packetRemaining := 0 }.finishPacket decode
      else .ok { validator with
        packet := validator.packet ++ [byte]
        packetRemaining := validator.packetRemaining - 1 } := by
  unfold TraceBodyValidator.pushByte
  rw [hstate]
  dsimp only
  by_cases hzero : validator.packetRemaining - 1 = 0
  · rw [if_pos hzero, if_pos hzero, hzero]
  · rw [if_neg hzero, if_neg hzero]

/-- The bytes of a packet are gathered. -/
theorem push_payload (hstate : validator.state = .packetPayload) (bytes : List UInt8)
    (hne : bytes ≠ []) (hremaining : validator.packetRemaining = bytes.length) :
    validator.push decode bytes =
      { validator with
        packet := validator.packet ++ bytes
        packetRemaining := 0 }.finishPacket decode := by
  induction bytes generalizing validator with
  | nil => exact absurd rfl hne
  | cons byte rest ih =>
    have hbyte : validator.packetRemaining - 1 = rest.length := by
      rw [hremaining, List.length_cons, Nat.add_sub_cancel]
    unfold TraceBodyValidator.push
    rw [List.foldlM_cons, pushByte_payload decode validator hstate, hbyte]
    by_cases hrest : rest = []
    · subst hrest
      rw [List.length_nil, if_pos rfl]
      exact bind_pure _
    · have hpositive : rest.length ≠ 0 := fun hzero => hrest (List.length_eq_zero_iff.mp hzero)
      rw [if_neg hpositive, ok_bind]
      have hmore := ih { validator with
        packet := validator.packet ++ [byte], packetRemaining := rest.length } hstate hrest rfl
      dsimp only at hmore
      rw [List.append_assoc] at hmore
      exact hmore

end Packets

/-! ## The packets of an export -/

/-- The name of a packet that describes a track, when it begins as that of the metadata. -/
def metadataName? (packet : TracePacket) : Option String :=
  match packet.data with
  | some (.trackDescriptor descriptor) => descriptor.name.filter startsWithMetadata
  | _ => none

/-- A packet as the exporter makes them: an event has a moment, a descriptor has none. -/
inductive Framed : TracePacket → Prop
  | descriptor (descriptor : TrackDescriptor) :
      Framed ⟨none, some 1, some (.trackDescriptor descriptor), none⟩
  | event (timestamp : Nat) (event : TrackEvent) :
      Framed ⟨some timestamp, some 1, some (.trackEvent event), some traceFileClock⟩

section Export

variable {decode : List UInt8 → Except String TracePacket} {validator : TraceBodyValidator}
  {packet : TracePacket}

/-- **A packet of the export is accepted.** -/
theorem Framed.checkPacket (h : Framed packet) (validator : TraceBodyValidator)
    (hname : ∀ name ∈ metadataName? packet, name = validator.expectedMetadataTrackName ∧
      validator.metadataDescriptorCount = 0) :
    validator.checkPacket packet = .ok { validator with
      metadataDescriptorCount :=
        validator.metadataDescriptorCount + (metadataName? packet).toList.length } := by
  cases h with
  | event timestamp event => rfl
  | descriptor descriptor =>
    unfold TraceBodyValidator.checkPacket
    rw [if_neg (not_not.mpr rfl)]
    dsimp only
    rw [if_neg (by simp)]
    obtain ⟨uuid, name, parentUuid, counter⟩ := descriptor
    cases name with
    | none => rfl
    | some name =>
      dsimp only
      unfold TraceBodyValidator.checkName
      have hmarked : metadataName? ⟨none, some 1,
          some (.trackDescriptor ⟨uuid, some name, parentUuid, counter⟩), none⟩ =
            if startsWithMetadata name = true then some name else none := rfl
      rw [hmarked] at hname ⊢
      by_cases hstarts : startsWithMetadata name = true
      · rw [if_pos hstarts] at hname ⊢
        obtain ⟨rfl, hzero⟩ := hname name rfl
        rw [if_neg (by rw [hstarts]; decide), if_neg (not_not.mpr rfl), hzero]
        rfl
      · rw [if_neg hstarts, if_pos (Bool.eq_false_iff.mpr hstarts)]
        rfl

/-- What the validator is once it has taken in so many packets. -/
structure Advanced (before : TraceBodyValidator) (packets : List TracePacket)
    (after : TraceBodyValidator) : Prop where
  awaiting : Awaiting after
  count : after.packetCount = before.packetCount + packets.length
  described : after.metadataDescriptorCount =
    before.metadataDescriptorCount + (packets.filterMap metadataName?).length
  expected : after.expectedMetadataTrackName = before.expectedMetadataTrackName

/-- **A packet that is too long is refused.** -/
theorem push_tooLong (h : Awaiting validator)
    (hfits : (encodeTracePacket packet).length < 2 ^ 64)
    (hlong : maxTracePacketBytes < (encodeTracePacket packet).length) (rest : List UInt8) :
    ∃ error, validator.push decode (encodeTracePacketFragment packet ++ rest) = .error error := by
  unfold encodeTracePacketFragment lengthField
  rw [List.append_assoc, push_header decode h hfits]
  unfold TraceBodyValidator.takeLength
  rw [if_pos hlong]
  exact ⟨_, rfl⟩

theorem finishPacket_framed (h : Framed packet) (validator : TraceBodyValidator)
    (hdecode : decode validator.packet = .ok packet)
    (hname : ∀ name ∈ metadataName? packet, name = validator.expectedMetadataTrackName ∧
      validator.metadataDescriptorCount = 0) (hcount : validator.packetCount < u64Max) :
    validator.finishPacket decode = .ok { validator with
      metadataDescriptorCount :=
        validator.metadataDescriptorCount + (metadataName? packet).toList.length
      packetCount := validator.packetCount + 1
      state := .topLevelKey } := by
  unfold TraceBodyValidator.finishPacket
  rw [mapError_bind_of_ok hdecode, h.checkPacket validator hname, ok_bind]
  dsimp only
  rw [checkedAdd_of_le (show validator.packetCount + 1 ≤ u64Max from hcount)]

/-- **A packet of the export is taken in.** -/
theorem push_packet (h : Awaiting validator) (hframed : Framed packet)
    (hdecode : decode (encodeTracePacket packet) = .ok packet)
    (hlength : (encodeTracePacket packet).length ≤ maxTracePacketBytes)
    (hname : ∀ name ∈ metadataName? packet, name = validator.expectedMetadataTrackName ∧
      validator.metadataDescriptorCount = 0) (hcount : validator.packetCount < u64Max)
    (rest : List UInt8) :
    ∃ after, Advanced validator [packet] after ∧
      validator.push decode (encodeTracePacketFragment packet ++ rest) = after.push decode rest := by
  have hfits : (encodeTracePacket packet).length < 2 ^ 64 :=
    hlength.trans_lt (by decide)
  have hadvanced (after : TraceBodyValidator) (hafter : after = { validator with
      packet := encodeTracePacket packet
      packetRemaining := 0
      metadataDescriptorCount :=
        validator.metadataDescriptorCount + (metadataName? packet).toList.length
      packetCount := validator.packetCount + 1
      state := .topLevelKey }) : Advanced validator [packet] after := by
    subst hafter
    refine ⟨⟨rfl, h.varint⟩, rfl, ?_, rfl⟩
    cases hmarked : metadataName? packet with
    | none => rw [List.filterMap_cons_none hmarked]; rfl
    | some name => rw [List.filterMap_cons_some hmarked]; rfl
  unfold encodeTracePacketFragment lengthField
  rw [List.append_assoc, push_header decode h hfits]
  unfold TraceBodyValidator.takeLength
  rw [if_neg (Nat.not_lt.mpr hlength)]
  dsimp only
  by_cases hempty : encodeTracePacket packet = []
  · rw [hempty, List.length_nil, if_pos rfl]
    have hdecode' : decode [] = .ok packet := hempty ▸ hdecode
    rw [finishPacket_framed hframed { validator with
      state := .packetLength, packetRemaining := 0, packet := [] } hdecode' hname hcount, ok_bind]
    exact ⟨_, hadvanced _ (by rw [hempty]), rfl⟩
  · rw [if_neg fun hzero => hempty (List.length_eq_zero_iff.mp hzero), ok_bind]
    unfold TraceBodyValidator.push
    rw [List.foldlM_append]
    have hpayload := push_payload decode { validator with
      state := .packetPayload
      packetRemaining := (encodeTracePacket packet).length
      packet := [] } rfl (encodeTracePacket packet) hempty rfl
    unfold TraceBodyValidator.push at hpayload
    dsimp only at hpayload
    rw [List.nil_append] at hpayload
    rw [hpayload, finishPacket_framed hframed { validator with
      state := .packetPayload, packetRemaining := 0, packet := encodeTracePacket packet }
      hdecode hname hcount, ok_bind]
    exact ⟨_, hadvanced _ rfl, rfl⟩

theorem Advanced.trans {middle after : TraceBodyValidator}
    {packets : List TracePacket} (h : Advanced validator [packet] middle)
    (h' : Advanced middle packets after) : Advanced validator (packet :: packets) after where
  awaiting := h'.awaiting
  count := by
    rw [h'.count, h.count, List.length_cons, List.length_cons, List.length_nil]
    omega
  described := by
    rw [h'.described, h.described, List.filterMap_cons]
    cases hmarked : metadataName? packet with
    | none => simp [hmarked]
    | some name =>
      simp [hmarked]
      omega
  expected := h'.expected.trans h.expected

/-- The packet is not too long. -/
def WithinLimit (packet : TracePacket) : Prop :=
  (encodeTracePacket packet).length ≤ maxTracePacketBytes

instance (packet : TracePacket) : Decidable (WithinLimit packet) :=
  inferInstanceAs (Decidable (_ ≤ _))

/-- The bytes of a trace. -/
def encodeTrace (packets : List TracePacket) : List UInt8 :=
  packets.flatMap encodeTracePacketFragment

/-- **The packets of an export are taken in when none is too long.** -/
theorem push_packets (h : Awaiting validator) (packets : List TracePacket)
    (hframed : ∀ packet ∈ packets, Framed packet)
    (hdecode : ∀ packet ∈ packets, decode (encodeTracePacket packet) = .ok packet)
    (hfits : ∀ packet ∈ packets, (encodeTracePacket packet).length < 2 ^ 64)
    (hnames : ∀ name ∈ packets.filterMap metadataName?,
      name = validator.expectedMetadataTrackName)
    (hdescribed : validator.metadataDescriptorCount + (packets.filterMap metadataName?).length ≤ 1)
    (hcount : validator.packetCount + packets.length ≤ u64Max) :
    if ∀ packet ∈ packets, WithinLimit packet then
      ∃ after, validator.push decode (encodeTrace packets) = .ok after ∧
        Advanced validator packets after
    else ∃ error, validator.push decode (encodeTrace packets) = .error error := by
  induction packets generalizing validator with
  | nil =>
    rw [if_pos fun _ hmem => (nomatch hmem)]
    exact ⟨validator, rfl, h, rfl, rfl, rfl⟩
  | cons packet rest ih =>
    obtain ⟨hframed, hframed'⟩ := List.forall_mem_cons.mp hframed
    obtain ⟨hdecode, hdecode'⟩ := List.forall_mem_cons.mp hdecode
    obtain ⟨hfits, hfits'⟩ := List.forall_mem_cons.mp hfits
    unfold encodeTrace
    rw [List.flatMap_cons]
    by_cases hlength : WithinLimit packet
    · have hname : ∀ name ∈ metadataName? packet, name = validator.expectedMetadataTrackName ∧
          validator.metadataDescriptorCount = 0 := by
        intro name hmem
        rw [List.filterMap_cons_some hmem] at hnames hdescribed
        refine ⟨hnames name List.mem_cons_self, ?_⟩
        rw [List.length_cons] at hdescribed
        omega
      have hroom : validator.packetCount < u64Max := by
        rw [List.length_cons] at hcount
        omega
      obtain ⟨middle, hmiddle, hpush⟩ := push_packet h hframed hdecode hlength hname hroom
        (rest.flatMap encodeTracePacketFragment)
      have hrest := ih hmiddle.awaiting hframed' hdecode' hfits' ?_ ?_ ?_
      · rw [hpush]
        by_cases hall : ∀ packet ∈ rest, WithinLimit packet
        · rw [if_pos hall] at hrest
          rw [if_pos (List.forall_mem_cons.mpr ⟨hlength, hall⟩)]
          obtain ⟨after, hafter, hadvanced⟩ := hrest
          exact ⟨after, hafter, hmiddle.trans hadvanced⟩
        · rw [if_neg hall] at hrest
          rw [if_neg fun hmore => hall (List.forall_mem_cons.mp hmore).2]
          exact hrest
      · intro name hmem
        rw [hmiddle.expected]
        refine hnames name ?_
        obtain ⟨other, hother, hsome⟩ := List.mem_filterMap.mp hmem
        exact List.mem_filterMap.mpr ⟨other, List.mem_cons_of_mem _ hother, hsome⟩
      · rw [hmiddle.described, Nat.add_assoc, ← List.length_append, ← List.filterMap_append]
        exact hdescribed
      · rw [hmiddle.count, Nat.add_assoc, ← List.length_append]
        exact hcount
    · rw [if_neg fun hall => hlength (List.forall_mem_cons.mp hall).1]
      exact push_tooLong h hfits (Nat.lt_of_not_le hlength) _

/-! ## The body -/

theorem length_lt_fragment (packet : TracePacket) : (encodeTracePacket packet).length <
    (encodeTracePacketFragment packet).length := by
  have hkey := List.length_pos_iff.mpr
    (encodeVarint_ne_nil (1 <<< 3 ||| WireType.lengthDelimited.number))
  unfold encodeTracePacketFragment lengthField encodeKey
  rw [List.length_append, List.length_append]
  omega

/-- A trace has more bytes than packets. -/
theorem length_le_encodeTrace (packets : List TracePacket) :
    packets.length ≤ (encodeTrace packets).length := by
  unfold encodeTrace
  induction packets with
  | nil => exact Nat.le_refl 0
  | cons packet rest ih =>
    have := length_lt_fragment packet
    rw [List.flatMap_cons, List.length_append, List.length_cons]
    omega

/-- The portions in which the bytes come in do not matter. -/
theorem foldlM_push (chunks : List (List UInt8)) :
    chunks.foldlM (TraceBodyValidator.push decode) validator =
      validator.push decode chunks.flatten := by
  induction chunks generalizing validator with
  | nil => rfl
  | cons chunk rest ih =>
    unfold TraceBodyValidator.push
    rw [List.foldlM_cons, List.flatten_cons, List.foldlM_append]
    refine congrArg (_ >>= ·) (funext fun next => ?_)
    exact ih

/-- **The body of an export is accepted, in any portions, exactly when no packet is too long.** -/
theorem validateBody_eq_ok_iff {metadata : ProjectionMetadata} {packets : List TracePacket}
    (hframed : ∀ packet ∈ packets, Framed packet)
    (hdecode : ∀ packet ∈ packets, decode (encodeTracePacket packet) = .ok packet)
    (hnames : packets.filterMap metadataName? = [metadata.metadataTrackName])
    (hbytes : (encodeTrace packets).length ≤ u64Max) {chunks : List (List UInt8)}
    (hchunks : chunks.flatten = encodeTrace packets) :
    validateBody decode metadata chunks = .ok () ↔
      ∀ packet ∈ packets, WithinLimit packet := by
  have hfits (packet : TracePacket) (hmem : packet ∈ packets) :
      (encodeTracePacket packet).length < 2 ^ 64 := by
    have hle := length_le_flatMap encodeTracePacketFragment hmem
    have := length_lt_fragment packet
    unfold encodeTrace at hbytes
    unfold u64Max at hbytes
    omega
  have hcount := (length_le_encodeTrace packets).trans hbytes
  have hawaiting : Awaiting (.new metadata) := ⟨rfl, rfl⟩
  have hpush := push_packets hawaiting packets hframed hdecode hfits
    (by rw [hnames]; exact fun name hmem => List.mem_singleton.mp hmem)
    (by rw [hnames]; exact Nat.le_refl 1)
    (show 0 + packets.length ≤ u64Max by rw [Nat.zero_add]; exact hcount)
  unfold validateBody
  rw [foldlM_push, hchunks]
  by_cases hall : ∀ packet ∈ packets, WithinLimit packet
  · rw [if_pos hall] at hpush
    obtain ⟨after, hafter, hadvanced⟩ := hpush
    rw [hafter, ok_bind]
    have hsome : packets ≠ [] := by
      rintro rfl
      cases hnames
    have hpositive := List.length_pos_iff.mpr hsome
    have hpackets : after.packetCount ≠ 0 := by
      rw [hadvanced.count]
      omega
    have hdescribed : after.metadataDescriptorCount = 1 := by
      rw [hadvanced.described, hnames]
      rfl
    unfold TraceBodyValidator.finish
    rw [if_neg hpackets, hadvanced.awaiting.state, hadvanced.awaiting.varint,
      if_neg (by decide), if_neg (not_not.mpr hdescribed)]
    exact iff_of_true rfl hall
  · rw [if_neg hall] at hpush
    obtain ⟨error, herror⟩ := hpush
    rw [herror]
    exact iff_of_false (fun h => nomatch h) hall

end Export

end Troupe.Perfetto
