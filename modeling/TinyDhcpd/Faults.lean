import TinyDhcpd.Effect

/-!
What a packet that goes wrong leaves behind.

The exceptions that `handle_epollin` catches come from the decoder, before anything has been
changed: a datagram that is decoded has an option 50 of four bytes, so that `to_number` does
not throw any more. The copies of the hardware address have no such guard. Their length is a
byte of the packet, and the arrays they go through have 16, 6 and 14 bytes.
-/

namespace TinyDhcpd.Faults

open Bytes OptionTag DhcpDatagram Daemon OptionArea Receive Effect

variable {host : ByteOrder} {cfg : SubnetConfiguration} {env : Env} {d : DhcpDatagram}
  {leases : LeaseTable}

/-- The `catch` clause for `std::invalid_argument` is taken. -/
def Rejected (o : Outcome) : Prop := ∃ what, o.result = .error (.invalidArgument what)

instance (o : Outcome) : Decidable (Rejected o) :=
  match h : o.result with
  | .error (.invalidArgument what) => .isTrue ⟨what, h⟩
  | .ok _ => .isFalse fun ⟨_, hw⟩ => by rw [h] at hw; cases hw
  | .error (.outOfBounds _) => .isFalse fun ⟨_, hw⟩ => by rw [h] at hw; cases hw
  | .error .outOfRange => .isFalse fun ⟨_, hw⟩ => by rw [h] at hw; cases hw
  | .error (.runtimeError _) => .isFalse fun ⟨_, hw⟩ => by rw [h] at hw; cases hw

/-! ### Rejected packets -/

lemma rejected_throw_iff {fault : Fault} :
    Rejected (.throw fault leases) ↔ ∃ what, fault = .invalidArgument what := by
  simp [Rejected, Outcome.throw]

lemma not_rejected_of_ok {o : Outcome} (h : o.result = .ok ()) : ¬ Rejected o := by
  rintro ⟨what, hw⟩
  rw [h] at hw
  cases hw

lemma discovery_not_rejected (hl : LegalLengths d.options) :
    ¬ Rejected (handleDiscovery host cfg env d leases) := by
  have h := discovered host cfg env d leases
  generalize handleDiscovery host cfg env d leases = o at h ⊢
  cases h with
  | overflow hlen => simp [rejected_throw_iff]
  | refused hlen ha =>
    cases ho : d.options.lookup REQUESTED_IP_ADDRESS with
    | none => simp [rejected_throw_iff]
    | some bytes =>
      refine absurd ⟨fun b hb => hl _ b hb 4 (by decide), fun hn => ?_⟩ ha
      rw [ho] at hn
      cases hn
  | exhausted hlen ha ho => exact not_rejected_of_ok rfl
  | offered hlen ha ho dest options => exact not_rejected_of_ok rfl

lemma request_not_rejected (hl : LegalLengths d.options) :
    ¬ Rejected (handleRequest host cfg env d leases) := by
  have h := requested host cfg env d leases
  generalize handleRequest host cfg env d leases = o at h ⊢
  cases h with
  | malformed hr =>
    obtain ⟨address, ha⟩ := requestedAddress_of_legalLengths hl
    rw [ha] at hr
    cases hr
  | foreign hr hs dest => exact not_rejected_of_ok rfl
  | refused hr hs hn dest => exact not_rejected_of_ok rfl
  | granted hr hs hf hla dest => exact not_rejected_of_ok rfl

lemma decline_not_rejected (hl : LegalLengths d.options) : ¬ Rejected (handleDecline d leases) := by
  unfold handleDecline
  cases ho : d.options.lookup REQUESTED_IP_ADDRESS with
  | none => simp [rejected_throw_iff]
  | some bytes =>
    simp only [toNumber_of_legalLengths hl ho]
    exact not_rejected_of_ok rfl

/-- **No handler is left by an exception that is caught.** -/
theorem handleRecv_not_rejected (hl : LegalLengths d.options) :
    ¬ Rejected (handleRecv host cfg env d leases) := by
  have h := handled host cfg env d leases
  generalize handleRecv host cfg env d leases = o at h ⊢
  cases h with
  | overread h => simp [rejected_throw_iff]
  | ignored hop => exact not_rejected_of_ok rfl
  | untyped hop hn => simp [rejected_throw_iff]
  | unknown hm hu => exact not_rejected_of_ok rfl
  | discover hm => exact discovery_not_rejected hl
  | request hm => exact request_not_rejected hl
  | release hm => exact not_rejected_of_ok rfl
  | inform hm =>
    have hi := informed host cfg env d leases
    generalize handleInform host cfg env d leases = o at hi ⊢
    cases hi with
    | overflow h => simp [rejected_throw_iff]
    | replied h => exact not_rejected_of_ok rfl
  | decline hm => exact decline_not_rejected hl

lemma caught_of_rejected {o : Outcome} (h : Rejected o) :
    caught o = { o with result := .ok () } := by
  obtain ⟨what, hw⟩ := h
  rw [caught, hw]

lemma receive_of_rejected {serverIp : UInt32} {uninit : DhcpDatagram} {data : RawData}
    {iface : Except Fault (UInt32 × String)}
    (h : Rejected (receive host cfg serverIp uninit env data iface leases)) :
    ∃ fault, receive host cfg serverIp uninit env data iface leases = .throw fault leases := by
  rcases receive_cases host cfg serverIp uninit env data iface leases with hf | ⟨d, info, hd, hr⟩
  · exact hf
  · obtain ⟨-, hp, -⟩ := of_fromBuffer_eq_ok hd
    rw [hr] at h
    exact absurd h (handleRecv_not_rejected (legalLengths_of_parseOptions hp))

/-- **A rejected packet leaves no trace.** If the `catch` clause is taken, `handle_epollin`
returns with the leases as they were and nothing is enqueued; and `to_number` throws in no
handler that gets a decoded datagram. -/
theorem rejected_leaves_no_trace (host : ByteOrder) (cfg : SubnetConfiguration)
    (serverIp : UInt32) (uninit : DhcpDatagram) (env : Env) (data : RawData)
    (iface : Except Fault (UInt32 × String)) (leases : LeaseTable) :
    (Rejected (receive host cfg serverIp uninit env data iface leases) →
      handleEpollin host cfg serverIp uninit env (.packet data iface) leases =
        (.ret leases, false)) ∧
    ∀ d, fromBuffer host uninit data.bytes = .ok d →
      (∀ bytes, d.options.lookup REQUESTED_IP_ADDRESS = some bytes →
        toNumber 32 bytes = .ok (readNumber 32 bytes)) ∧
      ∀ info, ¬ Rejected (handleDiscovery host cfg env (delivered serverIp info d) leases) ∧
        ¬ Rejected (handleRequest host cfg env (delivered serverIp info d) leases) ∧
        ¬ Rejected (handleDecline (delivered serverIp info d) leases) := by
  constructor
  · intro h
    obtain ⟨fault, hf⟩ := receive_of_rejected h
    rw [handleEpollin, caught_of_rejected h, hf]
    rfl
  · intro d hd
    obtain ⟨-, hp, -⟩ := of_fromBuffer_eq_ok hd
    have hl := legalLengths_of_parseOptions hp
    exact ⟨fun bytes hb => toNumber_of_legalLengths hl hb, fun info =>
      ⟨discovery_not_rejected hl, request_not_rejected hl, decline_not_rejected hl⟩⟩

/-- A message type of two bytes is rejected. -/
example : Rejected (receive .little Config.exampleConfig 0 blank at100
    ⟨List.replicate 240 0 ++ [DHCP_MESSAGE_TYPE, 2, 1, 1, OPTIONS_END] ++ List.replicate 331 0,
      by decide +kernel⟩ (.ok (0x7f000a01, "eth0")) .empty) := by
  decide +kernel

/-! ### The copies of the hardware address -/

/-- The length of the hardware address fits the arrays it is copied from and into: the 16 bytes
of `_hw_addr` that are printed, the 6 of an `ether_addr` for a DISCOVER, and the 14 of the
`sockaddr` that an INFORM puts into the ARP cache if its reply goes out as unicast. -/
structure Fits (d : DhcpDatagram) : Prop where
  print : d.hwaddrLen ≤ 16
  discover : IsMessage d DHCP_TYPE_DISCOVER → d.hwaddrLen ≤ 6
  inform : IsMessage d DHCP_TYPE_INFORM → Unicast d d.clientIp → d.hwaddrLen ≤ 14

lemma fits_of_message {t : UInt8} (hlen : d.hwaddrLen ≤ 16) (hm : IsMessage d t)
    (h1 : t ≠ DHCP_TYPE_DISCOVER) (h8 : t ≠ DHCP_TYPE_INFORM) : Fits d :=
  ⟨hlen, fun hc => absurd hc (hm.not_of_ne h1), fun hc => absurd hc (hm.not_of_ne h8)⟩

lemma defined_of_ok {o : Outcome} (h : o.result = .ok ()) : o.Defined := by
  intro i hi
  rw [h] at hi
  cases hi

lemma not_defined_throw (i : ℕ) (leases : LeaseTable) :
    ¬ (Outcome.throw (.outOfBounds i) leases).Defined := fun h => h i rfl

lemma discovery_defined_iff :
    (handleDiscovery host cfg env d leases).Defined ↔ d.hwaddrLen ≤ 6 := by
  have h := discovered host cfg env d leases
  generalize handleDiscovery host cfg env d leases = o at h ⊢
  rw [← UInt8.not_lt]
  cases h with
  | overflow hlen => exact iff_of_false (not_defined_throw 6 _) (not_not.mpr hlen)
  | refused hlen ha =>
    refine iff_of_true (fun i hi => ?_) hlen
    simp only [Outcome.throw] at hi
    split_ifs at hi <;> cases hi
  | exhausted hlen ha ho => exact iff_of_true (defined_of_ok rfl) hlen
  | offered hlen ha ho dest options => exact iff_of_true (defined_of_ok rfl) hlen

lemma request_defined : (handleRequest host cfg env d leases).Defined := by
  have h := requested host cfg env d leases
  generalize handleRequest host cfg env d leases = o at h ⊢
  cases h with
  | malformed hr => exact fun i hi => by cases hi
  | foreign hr hs dest => exact defined_of_ok rfl
  | refused hr hs hn dest => exact defined_of_ok rfl
  | granted hr hs hf hla dest => exact defined_of_ok rfl

lemma inform_defined_iff :
    (handleInform host cfg env d leases).Defined ↔
      (Unicast d d.clientIp → d.hwaddrLen ≤ 14) := by
  simp only [← UInt8.not_lt (a := 14)]
  have hiff : Caught (handleInform host cfg env d leases).result ↔
      (Unicast d d.clientIp → ¬ 14 < d.hwaddrLen) := inform_caught_iff
  rw [← hiff]
  have h := informed host cfg env d leases
  generalize handleInform host cfg env d leases = o at h ⊢
  cases h with
  | overflow h => exact iff_of_false (not_defined_throw 14 _) (by simp [caught_throw_iff])
  | replied h => exact iff_of_true (defined_of_ok rfl) (Or.inl rfl)

lemma decline_defined : (handleDecline d leases).Defined := by
  have h := declined d leases
  generalize handleDecline d leases = o at h ⊢
  cases h with
  | failed hr hf =>
    intro i hi
    simp only [Outcome.throw, hf] at hi
    split_ifs at hi <;> cases hi
  | banned hr => exact defined_of_ok rfl

/-- **The copies stay inside of the arrays** exactly if the length fits them. -/
theorem copies_inBounds_iff (host : ByteOrder) (cfg : SubnetConfiguration) (env : Env)
    (d : DhcpDatagram) (leases : LeaseTable) :
    (handleRecv host cfg env d leases).Defined ↔ Fits d := by
  by_cases hlen : 16 < d.hwaddrLen
  · rw [handleRecv, if_pos hlen]
    exact iff_of_false (not_defined_throw 16 _) fun h => UInt8.not_lt.mpr h.print hlen
  have hle : d.hwaddrLen ≤ 16 := UInt8.not_lt.mp hlen
  -- from here on the message type decides which copies are made
  have h := handled host cfg env d leases
  generalize handleRecv host cfg env d leases = o at h ⊢
  cases h with
  | overread h => exact absurd h hlen
  | ignored hop =>
    exact iff_of_true (defined_of_ok rfl)
      ⟨hle, fun hm => absurd hm.1 hop, fun hm => absurd hm.1 hop⟩
  | untyped hop hn =>
    exact iff_of_true (fun i hi => by cases hi)
      ⟨hle, fun hm => absurd hm (hn _), fun hm => absurd hm (hn _)⟩
  | unknown hm hu =>
    refine iff_of_true (defined_of_ok rfl) (fits_of_message hle hm ?_ ?_)
    · exact fun ht => absurd (by rw [ht]; decide) hu
    · exact fun ht => absurd (by rw [ht]; decide) hu
  | discover hm =>
    rw [discovery_defined_iff]
    exact ⟨fun h6 => ⟨hle, fun _ => h6, fun hc => absurd hc (hm.not_of_ne (by decide))⟩,
      fun h => h.discover hm⟩
  | request hm =>
    exact iff_of_true request_defined (fits_of_message hle hm (by decide) (by decide))
  | release hm =>
    exact iff_of_true (defined_of_ok rfl) (fits_of_message hle hm (by decide) (by decide))
  | inform hm =>
    rw [inform_defined_iff]
    exact ⟨fun h14 => ⟨hle, fun hc => absurd hc (hm.not_of_ne (by decide)), fun _ => h14⟩,
      fun h => h.inform hm⟩
  | decline hm =>
    exact iff_of_true decline_defined (fits_of_message hle hm (by decide) (by decide))

def sevenBytes : RawData :=
  ⟨[1, 1, 7, 0] ++ List.replicate 232 0 ++ toByteArray DHCP_MAGIC_COOKIE.toBitVec ++
    [DHCP_MESSAGE_TYPE, 1, DHCP_TYPE_DISCOVER, OPTIONS_END] ++ List.replicate 332 0,
    by decide +kernel⟩

/-- The seventh is written behind the `ether_addr`. -/
theorem seven_bytes_overflow :
    ∃ d, fromBuffer .little blank sevenBytes.bytes = .ok d ∧
      (handleRecv .little Config.exampleConfig at100 (delivered 0 (0x7f000a01, "eth0") d)
        .empty).result = .error (.outOfBounds 6) ∧
      ¬ (handleRecv .little Config.exampleConfig at100 (delivered 0 (0x7f000a01, "eth0") d)
        .empty).Defined := by
  have hbuf : fromBuffer .little blank sevenBytes.bytes =
      .ok { message DHCP_TYPE_DISCOVER .zero none with hwaddrType := 1, hwaddrLen := 7 } := by
    decide +kernel
  refine ⟨_, hbuf, ?_, ?_⟩
  · decide +kernel
  · decide +kernel

end TinyDhcpd.Faults
