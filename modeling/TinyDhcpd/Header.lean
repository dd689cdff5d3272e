import TinyDhcpd.OptionArea

/-!
What `from_buffer` recovers of a datagram that `to_byte_vector` has encoded.

The two list the fields of the header independently of each other. The decoder has no line
for the address of the relay agent, and its copy of the hardware address is one byte short:
these keep what the memory of the object happened to hold.
-/

namespace TinyDhcpd.Header

open Bytes OptionTag DhcpDatagram OptionArea

structure SameHeader (d d' : DhcpDatagram) : Prop where
  opcode : d.opcode = d'.opcode
  hwaddrType : d.hwaddrType = d'.hwaddrType
  hwaddrLen : d.hwaddrLen = d'.hwaddrLen
  transactionId : d.transactionId = d'.transactionId
  secsPassed : d.secsPassed = d'.secsPassed
  flags : d.flags = d'.flags
  clientIp : d.clientIp = d'.clientIp
  assignedIp : d.assignedIp = d'.assignedIp
  serverIp : d.serverIp = d'.serverIp
  relayAgentIp : d.relayAgentIp = d'.relayAgentIp
  hwAddr : d.hwAddr = d'.hwAddr

/-- The encoding, followed by zeros, is decoded to a datagram with the same header, by a
`from_buffer` whose object starts out as `uninit`. -/
def RoundTrips (host : ByteOrder) (uninit d : DhcpDatagram)
    (entries : List ((_ : OptionTag) × List UInt8)) (padding : ℕ) : Prop :=
  ∃ d', fromBuffer host uninit (d.toByteVector host entries ++ List.replicate padding 0) = .ok d' ∧
    SameHeader d' d

variable {host : ByteOrder} {uninit d : DhcpDatagram}
  {entries : List ((_ : OptionTag) × List UInt8)}

/-! ### The fields at their offsets -/

lemma drop_field {bytes field rest : List UInt8} {k n : ℕ} (h : bytes.drop k = field ++ rest)
    (hn : field.length = n) : bytes.drop (k + n) = rest := by
  rw [← List.drop_drop, h, List.drop_left' hn]

lemma readNumber_field {w : ℕ} (hw : 8 ∣ w) {bytes rest : List UInt8} {n : BitVec w} {k : ℕ}
    (h : bytes.drop k = toByteArray n ++ rest) : readNumber w (bytes.drop k) = n := by
  rw [h, readNumber_append (length_toByteArray n), readNumber_toByteArray hw]

structure Fields (host : ByteOrder) (d : DhcpDatagram) (bytes : List UInt8) : Prop where
  front : bytes = [d.opcode, d.hwaddrType, d.hwaddrLen, 0] ++ bytes.drop 4
  transactionId : bytes.drop 4 = toByteArray (htonl host d.transactionId).toBitVec ++ bytes.drop 8
  secsPassed : bytes.drop 8 = toByteArray (htons host d.secsPassed).toBitVec ++ bytes.drop 10
  flags : bytes.drop 10 = toByteArray d.flags.toBitVec ++ bytes.drop 12
  clientIp : bytes.drop 12 = toByteArray d.clientIp.toBitVec ++ bytes.drop 16
  assignedIp : bytes.drop 16 = toByteArray d.assignedIp.toBitVec ++ bytes.drop 20
  serverIp : bytes.drop 20 = toByteArray d.serverIp.toBitVec ++ bytes.drop 24
  relayAgentIp : bytes.drop 24 = toByteArray d.relayAgentIp.toBitVec ++ bytes.drop 28
  hwAddr : bytes.drop 28 = d.hwAddr.bytes ++ bytes.drop 44
  names : bytes.drop 44 = List.replicate 192 0 ++ bytes.drop 236
  cookie : bytes.drop 236 = toByteArray DHCP_MAGIC_COOKIE.toBitVec ++ bytes.drop 240

lemma fields_toByteVector (host : ByteOrder) (d : DhcpDatagram)
    (entries : List ((_ : OptionTag) × List UInt8)) (suffix : List UInt8) :
    Fields host d (d.toByteVector host entries ++ suffix) := by
  obtain ⟨bytes, hbytes⟩ : ∃ bytes, d.toByteVector host entries ++ suffix = bytes := ⟨_, rfl⟩
  have h0 : bytes.drop 0 = [d.opcode, d.hwaddrType, d.hwaddrLen, 0] ++
      (toByteArray (htonl host d.transactionId).toBitVec ++
        (toByteArray (htons host d.secsPassed).toBitVec ++ (toByteArray d.flags.toBitVec ++
        (toByteArray d.clientIp.toBitVec ++ (toByteArray d.assignedIp.toBitVec ++
        (toByteArray d.serverIp.toBitVec ++ (toByteArray d.relayAgentIp.toBitVec ++
        (d.hwAddr.bytes ++ (List.replicate 192 0 ++ (toByteArray DHCP_MAGIC_COOKIE.toBitVec ++
        (encodeOptions entries ++ suffix))))))))))) := by
    rw [← hbytes]
    simp only [toByteVector, encodeHeader, List.append_assoc]
    rfl
  have h4 := drop_field h0 rfl
  have h8 := drop_field h4 (length_toByteArray _)
  have h10 := drop_field h8 (length_toByteArray _)
  have h12 := drop_field h10 (length_toByteArray _)
  have h16 := drop_field h12 (length_toByteArray _)
  have h20 := drop_field h16 (length_toByteArray _)
  have h24 := drop_field h20 (length_toByteArray _)
  have h28 := drop_field h24 (length_toByteArray _)
  have h44 := drop_field h28 d.hwAddr.length_eq
  have h236 := drop_field h44 List.length_replicate
  have h240 := drop_field h236 (length_toByteArray _)
  norm_num only [List.length_cons, List.length_nil] at h4 h8 h10 h12 h16 h20 h24 h28 h44 h236 h240
  rw [hbytes]
  refine ⟨?_, ?_, ?_, ?_, ?_, ?_, ?_, ?_, ?_, ?_, ?_⟩
  · rw [h4]; exact h0
  · rw [h8]; exact h4
  · rw [h10]; exact h8
  · rw [h12]; exact h10
  · rw [h16]; exact h12
  · rw [h20]; exact h16
  · rw [h24]; exact h20
  · rw [h28]; exact h24
  · rw [h44]; exact h28
  · rw [h236]; exact h44
  · rw [h240]; exact h236

/-- **What is decoded** from an encoding: all fields but two come back. -/
theorem fromBuffer_toByteVector (host : ByteOrder) (uninit : DhcpDatagram)
    (hi : Iterates entries d.options) (hw : Wireable d.options) (suffix : List UInt8) :
    fromBuffer host uninit (d.toByteVector host entries ++ suffix) = .ok { d with
      relayAgentIp := uninit.relayAgentIp
      recvAddr := uninit.recvAddr
      recvIface := uninit.recvIface
      hwAddr := uninit.hwAddr.overwrite (d.hwAddr.bytes.take 15) } := by
  have hlen : (d.toByteVector host entries).length ≥ 240 := by
    rw [toByteVector, List.length_append, length_encodeHeader]
    omega
  have hopts := parseOptions_toByteVector host d entries suffix hi hw
  rw [← List.drop_append_of_le_length hlen] at hopts
  have hf := fields_toByteVector host d entries suffix
  have hkey : ((d.toByteVector host entries ++ suffix).drop 28).take 15 =
      d.hwAddr.bytes.take 15 := by
    rw [hf.hwAddr, List.take_append_of_le_length (by rw [d.hwAddr.length_eq]; omega)]
  have hshort : ¬ (d.toByteVector host entries ++ suffix).length < 240 := by
    rw [List.length_append]
    omega
  rw [fromBuffer, if_neg hshort, hopts, hkey, readNumber_field (by norm_num) hf.transactionId,
    readNumber_field (by norm_num) hf.secsPassed, readNumber_field (by norm_num) hf.flags,
    readNumber_field (by norm_num) hf.clientIp, readNumber_field (by norm_num) hf.assignedIp,
    readNumber_field (by norm_num) hf.serverIp, hf.front]
  simp only [UInt32.ofBitVec_toBitVec, UInt16.ofBitVec_toBitVec, ntohl_htonl, ntohs_htons]
  rfl

/-! ### The hardware address -/

lemma bytes_overwrite (old : HwAddr) {bytes : List UInt8} (h : bytes.length = 15) :
    (old.overwrite bytes).bytes = bytes ++ old.bytes.drop 15 := by
  simp only [HwAddr.overwrite, h]
  refine List.take_of_length_le ?_
  rw [List.length_append, List.length_drop, h, old.length_eq]

lemma overwrite_eq_iff {old key : HwAddr} {bytes : List UInt8} (h : bytes.length = 15) :
    old.overwrite bytes = key ↔
      bytes = key.bytes.take 15 ∧ old.bytes.drop 15 = key.bytes.drop 15 := by
  have hext : old.overwrite bytes = key ↔ (old.overwrite bytes).bytes = key.bytes := by
    obtain ⟨k, hk⟩ := key
    exact ⟨fun h => h ▸ rfl, fun h => by subst h; rfl⟩
  rw [hext, bytes_overwrite old h]
  constructor
  · intro heq
    rw [← List.take_append_drop 15 key.bytes] at heq
    exact List.append_inj heq (by simp [h, key.length_eq])
  · rintro ⟨rfl, hlast⟩
    rw [hlast, List.take_append_drop]

lemma length_take_fifteen {bytes : List UInt8} (h : 15 ≤ bytes.length) :
    (bytes.take 15).length = 15 := by
  rw [List.length_take, Nat.min_eq_left h]

/-! ### The round trip -/

lemma roundTrips_iff (hi : Iterates entries d.options) (hw : Wireable d.options) (padding : ℕ) :
    RoundTrips host uninit d entries padding ↔
      uninit.relayAgentIp = d.relayAgentIp ∧
        uninit.hwAddr.bytes.drop 15 = d.hwAddr.bytes.drop 15 := by
  have hlen : (d.hwAddr.bytes.take 15).length = 15 :=
    length_take_fifteen (by rw [d.hwAddr.length_eq]; omega)
  unfold RoundTrips
  simp only [fromBuffer_toByteVector host uninit hi hw, Except.ok.injEq, exists_eq_left']
  constructor
  · intro h
    exact ⟨h.relayAgentIp, ((overwrite_eq_iff hlen).mp h.hwAddr).2⟩
  · rintro ⟨hrelay, hlast⟩
    exact ⟨rfl, rfl, rfl, rfl, rfl, rfl, rfl, rfl, rfl, hrelay,
      (overwrite_eq_iff hlen).mpr ⟨rfl, hlast⟩⟩

lemma hwAddr_eq_iff {buffer : List UInt8} {uninit' d d' : DhcpDatagram}
    (h : fromBuffer host uninit buffer = .ok d) (h' : fromBuffer host uninit' buffer = .ok d') :
    d.hwAddr = d'.hwAddr ↔ uninit.hwAddr.bytes.drop 15 = uninit'.hwAddr.bytes.drop 15 := by
  obtain ⟨hlen, -, -, hd⟩ := of_fromBuffer_eq_ok h
  obtain ⟨-, -, -, hd'⟩ := of_fromBuffer_eq_ok h'
  have hlen : ((buffer.drop 28).take 15).length = 15 :=
    length_take_fifteen (by rw [List.length_drop]; omega)
  rw [hd, hd', overwrite_eq_iff hlen, bytes_overwrite _ hlen, List.take_left' hlen,
    List.drop_left' hlen]
  exact and_iff_right rfl

/-- **The header survives** exactly if the memory of the object holds the address of the relay
agent and the last byte of the hardware address by chance; two decodings of the same bytes give
the same key exactly if it held the same last byte both times. -/
theorem header_roundTrip_iff (host : ByteOrder) (uninit d : DhcpDatagram)
    (entries : List ((_ : OptionTag) × List UInt8)) (padding : ℕ)
    (hi : Iterates entries d.options) (hw : Wireable d.options) :
    (RoundTrips host uninit d entries padding ↔
      uninit.relayAgentIp = d.relayAgentIp ∧
        uninit.hwAddr.bytes.drop 15 = d.hwAddr.bytes.drop 15) ∧
    ∀ (buffer : List UInt8) (uninit' d₁ d₂ : DhcpDatagram),
      fromBuffer host uninit buffer = .ok d₁ → fromBuffer host uninit' buffer = .ok d₂ →
        (d₁.hwAddr = d₂.hwAddr ↔
          uninit.hwAddr.bytes.drop 15 = uninit'.hwAddr.bytes.drop 15) :=
  ⟨roundTrips_iff hi hw padding, fun _ _ _ _ h h' => hwAddr_eq_iff h h'⟩

/-- An object whose memory held sevens where the hardware address is. -/
def stale : DhcpDatagram := { blank with hwAddr := ⟨List.replicate 16 7, by simp⟩ }

theorem header_roundTrip_iff_sample :
    (RoundTrips .little stale sampleDatagram sampleEntries 328 ↔
      stale.relayAgentIp = sampleDatagram.relayAgentIp ∧
        stale.hwAddr.bytes.drop 15 = sampleDatagram.hwAddr.bytes.drop 15) ∧
    ∀ (buffer : List UInt8) (uninit' d₁ d₂ : DhcpDatagram),
      fromBuffer .little stale buffer = .ok d₁ → fromBuffer .little uninit' buffer = .ok d₂ →
        (d₁.hwAddr = d₂.hwAddr ↔
          stale.hwAddr.bytes.drop 15 = uninit'.hwAddr.bytes.drop 15) :=
  header_roundTrip_iff .little stale sampleDatagram sampleEntries 328 iterates_sample
    wireable_sample

/-- A hardware address of zeros comes back with a seven at its end, and as another key than
from an object whose memory was zero. -/
theorem stale_byte_in_key :
    Iterates sampleEntries sampleDatagram.options ∧ Wireable sampleDatagram.options ∧
      ¬ RoundTrips .little stale sampleDatagram sampleEntries 328 ∧
      ∃ buffer d₁ d₂, fromBuffer .little blank buffer = .ok d₁ ∧
        fromBuffer .little stale buffer = .ok d₂ ∧ d₁.hwAddr ≠ d₂.hwAddr := by
  have hne : stale.hwAddr.bytes.drop 15 ≠ sampleDatagram.hwAddr.bytes.drop 15 := by decide
  refine ⟨iterates_sample, wireable_sample, fun h => ?_, ?_⟩
  · exact hne ((roundTrips_iff iterates_sample wireable_sample 328).mp h).2
  · have h₁ := fromBuffer_toByteVector .little blank iterates_sample wireable_sample
      (List.replicate 328 0)
    have h₂ := fromBuffer_toByteVector .little stale iterates_sample wireable_sample
      (List.replicate 328 0)
    exact ⟨_, _, _, h₁, h₂, fun heq => hne ((hwAddr_eq_iff h₁ h₂).mp heq).symm⟩

end TinyDhcpd.Header
