import TinyDhcpd.Handlers
import TinyDhcpd.OptionArea

/-!
The way of a packet from the socket to the handlers, and which packets get out of it by an
exception.

`handle_epollin` decodes the packet and hands it to `handle_recv` inside of a block that
catches `std::invalid_argument`. The exceptions of the lookups, `std::out_of_range`, are not
of this kind.
-/

namespace TinyDhcpd.Receive

open Bytes OptionTag DhcpDatagram Daemon OptionArea

def DGRAM_SIZE : ℕ := 576

/-- `raw_data_buffer` after a packet has been received: a short packet is followed by zeros,
a long one is cut off. -/
structure RawData where
  bytes : List UInt8
  length_eq : bytes.length = DGRAM_SIZE

/-- What `recvmsg` gives: an error that asks to try again, another error, or a packet and what
`extract_interface_info` makes of its control messages. -/
inductive Received
  | wouldBlock
  | failed
  | packet (data : RawData) (iface : Except Fault (UInt32 × String))

/-- The `catch` clause. -/
def caught (o : Outcome) : Outcome :=
  match o.result with
  | .error (.invalidArgument _) => { o with result := .ok () }
  | _ => o

variable (host : ByteOrder) (cfg : SubnetConfiguration)

/-- The `try` block. `serverIp` is `_server_ip` of the socket, and `uninit` the contents of
the datagram before it is filled. -/
def receive (serverIp : UInt32) (uninit : DhcpDatagram) (env : Env) (data : RawData)
    (iface : Except Fault (UInt32 × String)) (leases : LeaseTable) : Outcome :=
  match fromBuffer host uninit data.bytes with
  | .error fault => .throw fault leases
  | .ok datagram =>
    match iface with
    | .error fault => .throw fault leases
    | .ok (recvAddr, recvIface) =>
      handleRecv host cfg env
        { datagram with
          serverIp := if datagram.serverIp = 0 then serverIp else datagram.serverIp
          recvAddr := recvAddr
          recvIface := recvIface } leases

/-- `handle_epollin`: what it did, and the value it returns if it does. -/
def handleEpollin (serverIp : UInt32) (uninit : DhcpDatagram) (env : Env) (received : Received)
    (leases : LeaseTable) : Outcome × Bool :=
  match received with
  | .wouldBlock => (.ret leases, true)
  | .failed => (.ret leases, false)
  | .packet data iface => (caught (receive host cfg serverIp uninit env data iface leases), false)

/-! ### The exceptions of the handlers -/

/-- The fault does not get past the `catch` clause. -/
def Caught (r : Except Fault Unit) : Prop :=
  r = .ok () ∨ ∃ what, r = .error (.invalidArgument what)

lemma caught_result (o : Outcome) : (caught o).result = .ok () ↔ Caught o.result := by
  unfold caught Caught
  rcases h : o.result with (_ | _ | _ | _) | _ <;> simp [h]

/-- A reply that goes out as unicast, for which the ARP cache is changed. -/
def Unicast (d : DhcpDatagram) (address : UInt32) : Prop :=
  ¬ (d.flags &&& 0x8000 ≠ 0 ∨ d.hwaddrLen = 0 ∨ d.hwAddr.bytes.all (· = 0) ∨
    address = INADDR_ANY)

/-- The condition on a decoded packet and the leases that survive the purge: the length of the
hardware address stays below those of the arrays it is copied between, and what the handlers
look up is there. -/
structure Processable (d : DhcpDatagram) (live : LeaseTable) : Prop where
  length : ¬ 16 < d.hwaddrLen
  type : d.opcode = 1 → DHCP_MESSAGE_TYPE ∈ d.options
  discover : IsMessage d DHCP_TYPE_DISCOVER → ¬ 6 < d.hwaddrLen ∧
    (REQUESTED_IP_ADDRESS ∉ d.options → d.clientIp ≠ INADDR_ANY →
      ∃ lease, live.find? d.hwAddr = some lease)
  inform : IsMessage d DHCP_TYPE_INFORM → Unicast d d.clientIp → ¬ 14 < d.hwaddrLen
  decline : IsMessage d DHCP_TYPE_DECLINE → REQUESTED_IP_ADDRESS ∈ d.options

variable {host cfg} {env : Env} {d : DhcpDatagram} {leases : LeaseTable}

lemma caught_throw_iff {fault : Fault} :
    Caught (Outcome.throw fault leases).result ↔ ∃ what, fault = .invalidArgument what := by
  simp [Caught, Outcome.throw]

lemma caught_lookup_iff :
    Caught (Outcome.throw (if d.options.lookup REQUESTED_IP_ADDRESS = none then .outOfRange
      else .invalidArgument "The given vector is not the right size!") leases).result ↔
      REQUESTED_IP_ADDRESS ∈ d.options := by
  rw [caught_throw_iff, ← Finmap.lookup_isSome]
  cases d.options.lookup REQUESTED_IP_ADDRESS <;> simp

lemma discovery_caught_iff :
    Caught (handleDiscovery host cfg env d leases).result ↔ ¬ 6 < d.hwaddrLen ∧
      (REQUESTED_IP_ADDRESS ∉ d.options → d.clientIp ≠ INADDR_ANY →
        ∃ lease, (updateLeases env.purge leases).find? d.hwAddr = some lease) := by
  have h := discovered host cfg env d leases
  generalize handleDiscovery host cfg env d leases = o at h ⊢
  have answered (ha : Answerable d (updateLeases env.purge leases)) :
      REQUESTED_IP_ADDRESS ∉ d.options → d.clientIp ≠ INADDR_ANY →
        ∃ lease, (updateLeases env.purge leases).find? d.hwAddr = some lease :=
    fun hn hc => Option.isSome_iff_exists.mp (ha.2 (Finmap.lookup_eq_none.mpr hn) hc)
  cases h with
  | overflow hlen => exact iff_of_false (by simp [caught_throw_iff]) fun hc => hc.1 hlen
  | refused hlen ha =>
    rw [caught_lookup_iff]
    refine ⟨fun hm => ⟨hlen, fun hn => absurd hm hn⟩, fun hc => ?_⟩
    by_contra hn
    refine ha ⟨fun bytes hb => ?_, fun _ hcl => Option.isSome_iff_exists.mpr (hc.2 hn hcl)⟩
    exact absurd (Finmap.mem_of_lookup_eq_some hb) hn
  | exhausted hlen ha ho => exact iff_of_true (Or.inl rfl) ⟨hlen, answered ha⟩
  | offered hlen ha ho dest options => exact iff_of_true (Or.inl rfl) ⟨hlen, answered ha⟩

lemma request_caught : Caught (handleRequest host cfg env d leases).result := by
  have h := requested host cfg env d leases
  generalize handleRequest host cfg env d leases = o at h ⊢
  cases h with
  | malformed hr => exact Or.inr ⟨_, rfl⟩
  | foreign hr hs dest => exact Or.inl rfl
  | refused hr hs hl dest => exact Or.inl rfl
  | granted hr hs hl hla dest => exact Or.inl rfl

lemma inform_caught_iff :
    Caught (handleInform host cfg env d leases).result ↔
      (Unicast d d.clientIp → ¬ 14 < d.hwaddrLen) := by
  have hdest : (∃ dest, getReplyDestination host cfg env d d.clientIp = .ok dest) ↔
      (Unicast d d.clientIp → ¬ 14 < d.hwaddrLen) := by
    unfold getReplyDestination Unicast
    split_ifs with h1 h2
    · refine iff_of_true ?_ fun h => absurd h1 h
      split <;> exact ⟨_, rfl⟩
    · exact iff_of_false (by simp) fun h => h h1 h2
    · exact iff_of_true ⟨_, rfl⟩ fun _ => h2
  rw [← hdest]
  have h := informed host cfg env d leases
  generalize handleInform host cfg env d leases = o at h ⊢
  cases h with
  | overflow h => exact iff_of_false (by simp [caught_throw_iff]) (by simp [h])
  | replied h => exact iff_of_true (Or.inl rfl) ⟨_, h⟩

lemma decline_caught_iff :
    Caught (handleDecline d leases).result ↔ REQUESTED_IP_ADDRESS ∈ d.options := by
  have h := declined d leases
  generalize handleDecline d leases = o at h ⊢
  cases h with
  | failed hr hf => rw [hf, caught_lookup_iff]
  | banned hr =>
    refine iff_of_true (Or.inl rfl) (Finmap.lookup_isSome.mp ?_)
    cases ho : d.options.lookup REQUESTED_IP_ADDRESS with
    | none => simp [requestedIp, ho] at hr
    | some bytes => rfl

lemma exists_isMessage (hl : LegalLengths d.options) (hop : d.opcode = 1)
    (hm : DHCP_MESSAGE_TYPE ∈ d.options) : ∃ t, IsMessage d t := by
  obtain ⟨value, hv⟩ := Finmap.mem_iff.mp hm
  have h1 : value.length = 1 := hl _ value hv 1 (by decide)
  obtain ⟨t, rfl⟩ := List.length_eq_one_iff.mp h1
  exact ⟨t, hop, [], hv⟩

lemma toNumber_of_legalLengths (hl : LegalLengths d.options) {bytes : List UInt8}
    (hb : d.options.lookup REQUESTED_IP_ADDRESS = some bytes) :
    toNumber 32 bytes = .ok (readNumber 32 bytes) :=
  toNumber_eq_ok (hl _ bytes hb 4 (by decide))

lemma requestedAddress_of_legalLengths (hl : LegalLengths d.options) :
    ∃ address, requestedAddress d = .ok address := by
  unfold requestedAddress
  cases hb : d.options.lookup REQUESTED_IP_ADDRESS with
  | none => exact ⟨_, rfl⟩
  | some bytes =>
    simp only [toNumber_of_legalLengths hl hb]
    exact ⟨_, rfl⟩

lemma IsMessage.mem {t : UInt8} (h : IsMessage d t) : DHCP_MESSAGE_TYPE ∈ d.options := by
  obtain ⟨-, rest, ho⟩ := h
  exact Finmap.mem_of_lookup_eq_some ho

/-- **One packet**, with option lengths as the parser leaves them. -/
theorem handleRecv_caught_iff (host : ByteOrder) (cfg : SubnetConfiguration) (env : Env)
    (leases : LeaseTable) (hl : LegalLengths d.options) :
    Caught (handleRecv host cfg env d leases).result ↔
      Processable d (updateLeases env.purge leases) := by
  by_cases hlen : 16 < d.hwaddrLen
  · rw [handleRecv, if_pos hlen]
    exact iff_of_false (by simp [caught_throw_iff]) fun hp => hp.length hlen
  -- a message of one type meets the conditions on the others
  have only {t : UInt8} (hm : IsMessage d t)
      (h1 : t = DHCP_TYPE_DISCOVER → ¬ 6 < d.hwaddrLen ∧
        (REQUESTED_IP_ADDRESS ∉ d.options → d.clientIp ≠ INADDR_ANY →
          ∃ lease, (updateLeases env.purge leases).find? d.hwAddr = some lease))
      (h8 : t = DHCP_TYPE_INFORM → Unicast d d.clientIp → ¬ 14 < d.hwaddrLen)
      (h4 : t = DHCP_TYPE_DECLINE → REQUESTED_IP_ADDRESS ∈ d.options) :
      Processable d (updateLeases env.purge leases) :=
    ⟨hlen, fun _ => IsMessage.mem hm, fun h => h1 (hm.unique h), fun h => h8 (hm.unique h),
      fun h => h4 (hm.unique h)⟩
  have h := handled host cfg env d leases
  generalize handleRecv host cfg env d leases = o at h ⊢
  cases h with
  | overread h => exact absurd h hlen
  | ignored hop =>
    exact iff_of_true (Or.inl rfl) ⟨hlen, fun hc => absurd hc hop, fun hm => absurd hm.1 hop,
      fun hm => absurd hm.1 hop, fun hm => absurd hm.1 hop⟩
  | untyped hop hn =>
    -- a type that is there has a byte, so the lookup has thrown
    refine iff_of_false (by simp [caught_throw_iff]) fun hp => ?_
    obtain ⟨t, ht⟩ := exists_isMessage hl hop (hp.type hop)
    exact hn t ht
  | unknown hm hu =>
    refine iff_of_true (Or.inl rfl) (only hm ?_ ?_ ?_)
    · exact fun ht => absurd (by rw [ht]; decide) hu
    · exact fun ht => absurd (by rw [ht]; decide) hu
    · exact fun ht => absurd (by rw [ht]; decide) hu
  | discover hm =>
    rw [discovery_caught_iff]
    exact ⟨fun hc => only hm (fun _ => hc) (absurd · (by decide)) (absurd · (by decide)),
      fun hp => hp.discover hm⟩
  | request hm =>
    exact iff_of_true request_caught
      (only hm (absurd · (by decide)) (absurd · (by decide)) (absurd · (by decide)))
  | release hm =>
    exact iff_of_true (Or.inl rfl)
      (only hm (absurd · (by decide)) (absurd · (by decide)) (absurd · (by decide)))
  | inform hm =>
    rw [inform_caught_iff]
    exact ⟨fun hc => only hm (absurd · (by decide)) (fun _ => hc) (absurd · (by decide)),
      fun hp => hp.inform hm⟩
  | decline hm =>
    rw [decline_caught_iff]
    exact ⟨fun hc => only hm (absurd · (by decide)) (absurd · (by decide)) (fun _ => hc),
      fun hp => hp.decline hm⟩

/-! ### The packet -/

/-- Decoding a packet with a terminated options area gives a datagram with legal lengths or
an exception that is caught. -/
lemma fromBuffer_cases (host : ByteOrder) (uninit : DhcpDatagram) (data : RawData)
    (ht : Terminated (data.bytes.drop 240)) :
    (∃ d, fromBuffer host uninit data.bytes = .ok d ∧ LegalLengths d.options) ∨
      ∃ what, fromBuffer host uninit data.bytes = .error (.invalidArgument what) := by
  have hlen : ¬ data.bytes.length < 240 := by
    rw [data.length_eq]
    decide
  have harea : 0 < (data.bytes.drop 240).length := by
    rw [List.length_drop, data.length_eq]
    decide
  unfold fromBuffer
  rw [if_neg hlen]
  cases hp : parseOptions (data.bytes.drop 240) with
  | ok m => exact Or.inl ⟨_, rfl, legalLengths_of_parseOptions hp⟩
  | error fault =>
    rw [parseOptions, if_pos harea] at hp
    rcases ht.contained.parseLoop_cases (data.bytes.drop 240).length ∅ with ⟨m, hm⟩ | ⟨what, hw⟩
    · rw [hm] at hp
      cases hp
    · rw [hw] at hp
      cases hp
      exact Or.inr ⟨what, rfl⟩

/-- **`handle_epollin` returns** from a packet with a terminated options area exactly if the
packet is rejected by the parser or can be processed. -/
theorem handleEpollin_returns_iff (host : ByteOrder) (cfg : SubnetConfiguration)
    (serverIp : UInt32) (uninit : DhcpDatagram) (env : Env) (data : RawData)
    (iface : UInt32 × String) (leases : LeaseTable) (ht : Terminated (data.bytes.drop 240)) :
    (handleEpollin host cfg serverIp uninit env (.packet data (.ok iface)) leases).1.result =
        .ok () ↔
      ∀ d, fromBuffer host uninit data.bytes = .ok d →
        Processable d (updateLeases env.purge leases) := by
  rw [handleEpollin, caught_result, receive]
  rcases fromBuffer_cases host uninit data ht with ⟨d, hd, hl⟩ | ⟨what, hw⟩
  · simp only [hd, Except.ok.injEq, forall_eq']
    rw [handleRecv_caught_iff]
    · exact ⟨fun hp => ⟨hp.length, hp.type, hp.discover, hp.inform, hp.decline⟩,
        fun hp => ⟨hp.length, hp.type, hp.discover, hp.inform, hp.decline⟩⟩
    · exact hl
  · simp only [hw]
    exact iff_of_true (Or.inr ⟨what, rfl⟩) fun d hd => by cases hd

def bootRequest : RawData :=
  ⟨[1, 1, 6, 0] ++ List.replicate 236 0 ++ OPTIONS_END :: List.replicate 335 0, by
    decide +kernel⟩

lemma terminated_bootRequest : Terminated (bootRequest.bytes.drop 240) := by
  have h : bootRequest.bytes.drop 240 = OPTIONS_END :: List.replicate 335 0 := by decide +kernel
  rw [h]
  exact .stop _

theorem handleEpollin_returns_iff_bootRequest :
    (handleEpollin .little Config.exampleConfig 0 blank at100
        (.packet bootRequest (.ok (0x7f000a01, "eth0"))) .empty).1.result = .ok () ↔
      ∀ d, fromBuffer .little blank bootRequest.bytes = .ok d →
        Processable d (updateLeases at100.purge .empty) :=
  handleEpollin_returns_iff .little Config.exampleConfig 0 blank at100 bootRequest
    (0x7f000a01, "eth0") .empty terminated_bootRequest

/-- The lookup of its message type throws an exception that nobody catches. -/
theorem bootRequest_escapes :
    Terminated (bootRequest.bytes.drop 240) ∧
      (handleEpollin .little Config.exampleConfig 0 blank at100
        (.packet bootRequest (.ok (0x7f000a01, "eth0"))) .empty).1.result =
        .error .outOfRange :=
  ⟨terminated_bootRequest, by decide +kernel⟩

end TinyDhcpd.Receive
