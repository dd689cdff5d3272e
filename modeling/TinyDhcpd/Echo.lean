import TinyDhcpd.Answer
import TinyDhcpd.Effect
import TinyDhcpd.Header

/-!
What of a request comes back in the bytes of the reply.

A field goes through the decoder, the skeleton of the reply and the encoder. The transaction id
is converted to host order and back, the other numbers are read and written byte by byte, so the
bytes are the same on every host.
-/

namespace TinyDhcpd.Echo

open Bytes OptionTag DhcpDatagram Daemon OptionArea Receive Transmit Effect Header Answer

/-- The bytes `R` of a reply that assigns an address echo the bytes `B` of the request. -/
structure Echoes (B R : List UInt8) (assigned : UInt32) : Prop where
  opcode : R[0]? = some 2
  hwaddrType : R[1]? = B[1]?
  hwaddrLen : R[2]? = B[2]?
  hops : R[3]? = some 0
  transactionId : (R.drop 4).take 4 = (B.drop 4).take 4
  secsPassed : (R.drop 8).take 2 = [0, 0]
  flags : (R.drop 10).take 2 = (B.drop 10).take 2
  clientIp : (R.drop 12).take 4 = [0, 0, 0, 0]
  assignedIp : (R.drop 16).take 4 = toByteArray assigned.toBitVec
  hwAddr : (R.drop 28).take 6 = (B.drop 28).take 6
  names : (R.drop 44).take 192 = List.replicate 192 0
  cookie : (R.drop 236).take 4 = [0x63, 0x82, 0x53, 0x63]
  last : R.getLast? = some 255

variable {host : ByteOrder} {cfg : SubnetConfiguration} {env : Env} {d : DhcpDatagram}
  {leases : LeaseTable}

lemma take_field {bytes field rest : List UInt8} {k n : ℕ} (h : bytes.drop k = field ++ rest)
    (hn : field.length = n) : (bytes.drop k).take n = field := by
  rw [h, List.take_left' hn]

/-- What the skeleton of a reply has of the buffer the request was decoded from. -/
structure Skeleton (host : ByteOrder) (B : List UInt8) (d : DhcpDatagram) : Prop where
  hwaddrType : d.hwaddrType = B.getD 1 0
  hwaddrLen : d.hwaddrLen = B.getD 2 0
  transactionId : d.transactionId = ntohl host ⟨readNumber 32 (B.drop 4)⟩
  flags : d.flags = ⟨readNumber 16 (B.drop 10)⟩
  hwAddr : d.hwAddr.bytes.take 6 = (B.drop 28).take 6

lemma skeleton_of_fromBuffer {uninit : DhcpDatagram} {buffer : List UInt8}
    (h : fromBuffer host uninit buffer = .ok d) : Skeleton host buffer d := by
  obtain ⟨hlen, hp, -, hkey⟩ := of_fromBuffer_eq_ok h
  have h15 : ((buffer.drop 28).take 15).length = 15 :=
    length_take_fifteen (by rw [List.length_drop]; omega)
  have hmac : d.hwAddr.bytes.take 6 = (buffer.drop 28).take 6 := by
    rw [hkey, bytes_overwrite _ h15, List.take_append_of_le_length (by omega), List.take_take]
    rfl
  rw [fromBuffer, if_neg (by omega), hp] at h
  have hd := (Except.ok.inj h).symm
  refine ⟨?_, ?_, ?_, ?_, hmac⟩
  · rw [hd]
  · rw [hd]
  · rw [hd]
  · rw [hd]

/-- **A skeleton echoes the request**, whatever address and options are filled in. -/
theorem echoes_skeleton {buffer : List UInt8} (hlen : 240 ≤ buffer.length)
    (hs : Skeleton host buffer d) (assigned : UInt32) (options : Options)
    (entries : List ((_ : OptionTag) × List UInt8)) :
    Echoes buffer (toByteVector host { createSkeletonReplyDatagram d with
      assignedIp := assigned
      options := options } entries) assigned := by
  obtain ⟨reply, hreply⟩ : ∃ reply, { createSkeletonReplyDatagram d with
      assignedIp := assigned
      options := options } = reply := ⟨_, rfl⟩
  have hf := fields_toByteVector host reply entries []
  rw [List.append_nil] at hf
  have hget {i : ℕ} (hi : i < buffer.length) : some (buffer.getD i 0) = buffer[i]? := by
    rw [List.getD_eq_getElem _ _ hi, List.getElem?_eq_getElem hi]
  rw [hreply]
  refine ⟨?_, ?_, ?_, ?_, ?_, ?_, ?_, ?_, ?_, ?_, ?_, ?_, ?_⟩
  -- one goal for each field, in the order of the header
  · rw [hf.front, ← hreply]
    rfl
  · rw [hf.front, ← hreply, ← hget (by omega), ← hs.hwaddrType]
    rfl
  · rw [hf.front, ← hreply, ← hget (by omega), ← hs.hwaddrLen]
    rfl
  · rw [hf.front, ← hreply]
    rfl
  · rw [take_field hf.transactionId (length_toByteArray _), ← hreply]
    show toByteArray (htonl host d.transactionId).toBitVec = _
    rw [hs.transactionId, htonl_ntohl]
    exact toByteArray_readNumber_take (by norm_num) (by rw [List.length_drop]; omega)
  · rw [take_field hf.secsPassed (length_toByteArray _), ← hreply]
    show toByteArray (htons host 0).toBitVec = [0, 0]
    cases host <;> decide
  · rw [take_field hf.flags (length_toByteArray _), ← hreply]
    show toByteArray d.flags.toBitVec = _
    rw [hs.flags]
    exact toByteArray_readNumber_take (by norm_num) (by rw [List.length_drop]; omega)
  · rw [take_field hf.clientIp (length_toByteArray _), ← hreply]
    show toByteArray INADDR_ANY.toBitVec = [0, 0, 0, 0]
    decide
  · rw [take_field hf.assignedIp (length_toByteArray _), ← hreply]
  · rw [hf.hwAddr, List.take_append_of_le_length (by rw [reply.hwAddr.length_eq]; omega), ← hreply]
    exact hs.hwAddr
  · exact take_field hf.names List.length_replicate
  · rw [take_field hf.cookie (length_toByteArray _)]
    decide
  · rw [toByteVector, encodeOptions, ← List.append_assoc, List.getLast?_append]
    rfl

/-- The address a reply assigns: none in a NAK and to an INFORM, and the one that is recorded as
the lease of the client in an OFFER and an ACK. -/
structure Assigns (d reply : DhcpDatagram) (left : LeaseTable) : Prop where
  none : HasType reply DHCP_TYPE_NAK ∨ IsMessage d DHCP_TYPE_INFORM → reply.assignedIp = 0
  lease : IsMessage d DHCP_TYPE_DISCOVER ∨
      IsMessage d DHCP_TYPE_REQUEST ∧ HasType reply DHCP_TYPE_ACK →
    (left.find? d.hwAddr).map Lease.addr = some reply.assignedIp

lemma assigns_of_none {reply : DhcpDatagram} {left : LeaseTable} {t : UInt8}
    (h0 : reply.assignedIp = 0) (hm : IsMessage d t) (ht : t ≠ DHCP_TYPE_DISCOVER)
    (hack : IsMessage d DHCP_TYPE_REQUEST → ¬ HasType reply DHCP_TYPE_ACK) :
    Assigns d reply left := by
  refine ⟨fun _ => h0, ?_⟩
  rintro (hc | ⟨hc, hty⟩)
  · exact absurd hc (hm.not_of_ne ht)
  · exact absurd hty (hack hc)

lemma assigns_of_lease {reply : DhcpDatagram} {left : LeaseTable} {lease : Lease} {t type : UInt8}
    (haddr : reply.assignedIp = lease.addr) (hm : IsMessage d t) (ht : t ≠ DHCP_TYPE_INFORM)
    (hty : HasType reply type) (htype : type ≠ DHCP_TYPE_NAK) :
    Assigns d reply (left.insert d.hwAddr lease) := by
  refine ⟨?_, fun _ => ?_⟩
  · rintro (hc | hc)
    · exact absurd hc (hty.not_of_ne htype)
    · exact absurd hc (hm.not_of_ne ht)
  · rw [OrdMap.find?_insert_self, Option.map_some, haddr]

lemma skeleton_of_replied {dest : SockaddrIn} {reply : DhcpDatagram} {left : LeaseTable}
    (h : Replied host cfg env d leases dest reply left) :
    (∃ options, reply = { createSkeletonReplyDatagram d with
      assignedIp := reply.assignedIp
      options := options }) ∧ Assigns d reply left := by
  cases h with
  | offer hm hlen hw ho hd =>
    exact ⟨⟨_, rfl⟩, assigns_of_lease rfl hm (by decide) (hasType_offerReply _ _) (by decide)⟩
  | nak hm hd =>
    exact ⟨⟨_, rfl⟩, assigns_of_none rfl hm (by decide) fun _ =>
      hasType_nak.not_of_ne (by decide)⟩
  | ack hm hl hr hs hd =>
    exact ⟨⟨_, rfl⟩, assigns_of_lease rfl hm (by decide) (hasType_ack _) (by decide)⟩
  | inform hm hd =>
    refine ⟨⟨_, rfl⟩, assigns_of_none rfl hm (by decide) fun hc => ?_⟩
    exact absurd hc (hm.not_of_ne (by decide))

lemma caught_enqueued (o : Outcome) :
    (caught o).enqueued = o.enqueued ∧ (caught o).leases = o.leases := by
  unfold caught
  split <;> exact ⟨rfl, rfl⟩

/-- **Replies echo the request on the wire**, on hosts of both byte orders and whatever the order
the options are visited in. -/
theorem replies_echo (host : ByteOrder) (cfg : SubnetConfiguration) (serverIp : UInt32)
    (uninit : DhcpDatagram) (env : Env) (data : RawData)
    (iface : Except Fault (UInt32 × String)) (leases : LeaseTable)
    (e : SockaddrIn × DhcpDatagram) (entries : List ((_ : OptionTag) × List UInt8))
    (he : e ∈ (handleEpollin host cfg serverIp uninit env (.packet data iface) leases).1.enqueued) :
    Echoes data.bytes (e.2.toByteVector host entries) e.2.assignedIp ∧
      ∃ d, fromBuffer host uninit data.bytes = .ok d ∧ Assigns d e.2
        (handleEpollin host cfg serverIp uninit env (.packet data iface) leases).1.leases := by
  simp only [handleEpollin, caught_enqueued] at he ⊢
  rcases receive_cases host cfg serverIp uninit env data iface leases with
    ⟨fault, hf⟩ | ⟨d, info, hd, hr⟩
  · rw [hf] at he
    cases he
  · rw [hr] at he ⊢
    obtain ⟨⟨options, hreply⟩, ha⟩ := skeleton_of_replied (replied he)
    have hs := skeleton_of_fromBuffer hd
    refine ⟨?_, d, hd, ha.none, ha.lease⟩
    rw [hreply]
    exact echoes_skeleton (by rw [data.length_eq]; decide)
      ⟨hs.hwaddrType, hs.hwaddrLen, hs.transactionId, hs.flags, hs.hwAddr⟩ _ options entries

theorem replies_echo_cookieless :
    ∃ e ∈ (handleEpollin .little Config.exampleConfig 0 blank at100
        (.packet cookieless (.ok (0x7f000a01, "eth0"))) .empty).1.enqueued,
      Echoes cookieless.bytes (e.2.toByteVector .little []) e.2.assignedIp := by
  have hne : (handleEpollin .little Config.exampleConfig 0 blank at100
      (.packet cookieless (.ok (0x7f000a01, "eth0"))) .empty).1.enqueued ≠ [] := by
    decide +kernel
  obtain ⟨e, he⟩ := List.exists_mem_of_ne_nil _ hne
  exact ⟨e, he, (replies_echo .little Config.exampleConfig 0 blank at100 cookieless
    (.ok (0x7f000a01, "eth0")) .empty e [] he).1⟩

end TinyDhcpd.Echo
