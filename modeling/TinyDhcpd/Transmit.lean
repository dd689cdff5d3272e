import TinyDhcpd.Receive

/-!
The way of a reply from the handlers to the network.

A reply is kept in the send queue until `handle_epollout` encodes it. The encoder narrows the
length of an option to a byte, and the configuration does not bound it: a value can be as
long as the file makes it. The replies that are filled in from the configuration are those to
a DISCOVER, to an INFORM and to a REQUEST that is granted.
-/

namespace TinyDhcpd.Transmit

open Bytes OptionTag DhcpDatagram Daemon OptionArea Receive

/-- `_send_queue`, from its front to its back. -/
abbrev SendQueue := List (SockaddrIn × DhcpDatagram)

/-- What `sendto` comes to: success, `EWOULDBLOCK` or another error. -/
inductive SendResult
  | sent
  | wouldBlock
  | failed
  deriving DecidableEq

/-- What a call of `handle_epollout` has done: the value it returns, the queue it leaves and
what it has handed to `sendto`. -/
structure Transmission where
  wouldBlock : Bool
  queue : SendQueue
  payload : Option (SockaddrIn × List UInt8)

/-- `handle_epollout`, when the iteration over the options of the reply at the front visits
`entries`. Only `EWOULDBLOCK` leaves the reply where it is. -/
def handleEpollout (host : ByteOrder) (entries : List ((_ : OptionTag) × List UInt8))
    (result : SendResult) (queue : SendQueue) : Transmission :=
  match queue with
  | [] => ⟨false, [], none⟩
  | (destination, datagram) :: rest =>
    let data := datagram.toByteVector host entries
    if result = .wouldBlock then ⟨true, queue, some (destination, data)⟩
    else ⟨false, rest, some (destination, data)⟩

/-- Whenever the reply is at the front of the queue, what is handed to `sendto` is addressed
to its destination and its options area is read back as the options of the reply. -/
def Decodable (host : ByteOrder) (e : SockaddrIn × DhcpDatagram) : Prop :=
  ∀ entries result rest, Iterates entries e.2.options →
    ∃ bytes, (handleEpollout host entries result (e :: rest)).payload = some (e.1, bytes) ∧
      parseOptions (bytes.drop 240) = .ok e.2.options

lemma payload_handleEpollout (host : ByteOrder) (entries : List ((_ : OptionTag) × List UInt8))
    (result : SendResult) (e : SockaddrIn × DhcpDatagram) (rest : SendQueue) :
    (handleEpollout host entries result (e :: rest)).payload =
      some (e.1, e.2.toByteVector host entries) := by
  unfold handleEpollout
  split_ifs <;> rfl

lemma exists_iterates (m : Options) : ∃ entries, Iterates entries m :=
  Quot.exists_rep m.entries

/-- What the encoder needs besides a short value. -/
def Legal (tag : OptionTag) (value : List UInt8) : Prop :=
  Tagged tag ∧ ∀ legal ∈ predefinedOptionLengths tag, value.length = legal.toNat

lemma decodable_iff_short (host : ByteOrder) {e : SockaddrIn × DhcpDatagram}
    (hm : ∀ tag value, e.2.options.lookup tag = some value → Legal tag value) :
    Decodable host e ↔ ∀ tag value, e.2.options.lookup tag = some value → value.length ≤ 255 := by
  constructor
  · intro h tag value hv
    obtain ⟨entries, hi⟩ := exists_iterates e.2.options
    obtain ⟨bytes, -, hp⟩ := h entries .sent [] hi
    exact length_le_of_parseOptions hp hv
  · intro hs entries result rest hi
    refine ⟨_, payload_handleEpollout host entries result e rest, ?_⟩
    have hw : Wireable e.2.options := fun tag value hv =>
      ⟨(hm tag value hv).1, hs tag value hv, (hm tag value hv).2⟩
    have h := parseOptions_toByteVector host e.2 entries [] hi hw
    rwa [List.append_nil] at h

/-! ### The options of a reply -/

/-- The options a handler sets by itself, and how long they are. -/
def Own (tag : OptionTag) (value : List UInt8) : Prop :=
  tag = DHCP_MESSAGE_TYPE ∧ value.length = 1 ∨
    (tag = SERVER_IDENTIFIER ∨ tag = LEASE_TIME) ∧ value.length = 4

/-- Options that are filled in from the configuration: each is one of the handler's own or is
requested and defined, and what is requested and defined is there, the lease time apart. -/
structure FilledIn (cfg : SubnetConfiguration) (d : DhcpDatagram) (m : Options) : Prop where
  origin : ∀ tag value, m.lookup tag = some value →
    Own tag value ∨ tag ∈ requestList d ∧ cfg.definedOptions.lookup tag = some value
  requested : ∀ tag ∈ requestList d, (∀ value, ¬ Own tag value) → ∀ value,
    cfg.definedOptions.lookup tag = some value → m.lookup tag = some value

variable {host : ByteOrder} {cfg : SubnetConfiguration} {env : Env} {d : DhcpDatagram}
  {leases : LeaseTable} {m : Options}

lemma own_number {tag : OptionTag} (n : UInt32) (ht : tag = SERVER_IDENTIFIER ∨ tag = LEASE_TIME) :
    Own tag (toByteArray n.toBitVec) := Or.inr ⟨ht, length_toByteArray _⟩

lemma own_messageType (type : UInt8) : Own DHCP_MESSAGE_TYPE [type] := Or.inl ⟨rfl, rfl⟩

/-- The handlers' own options, before anything is filled in. -/
def AllOwn (m : Options) : Prop := ∀ tag value, m.lookup tag = some value → Own tag value

lemma allOwn_empty : AllOwn ∅ := fun tag value h => by simp at h

lemma AllOwn.insert (h : AllOwn m) {tag : OptionTag} {value : List UInt8} (ho : Own tag value) :
    AllOwn (m.insert tag value) := by
  intro t v hl
  rcases lookup_insert_cases hl with ⟨rfl, rfl⟩ | ⟨-, hl⟩
  · exact ho
  · exact h t v hl

lemma AllOwn.filledIn (h : AllOwn m) : FilledIn cfg d (setRequestedOptions cfg d m) where
  origin tag value hl := by
    rw [lookup_setRequestedOptions, Option.or_eq_some_iff] at hl
    rcases hl with hl | ⟨-, hl⟩
    · exact Or.inl (h tag value hl)
    · split_ifs at hl with hr
      exact Or.inr ⟨hr, hl⟩
  requested tag hr hn value hv := by
    have hnone : m.lookup tag = none := by
      cases hm : m.lookup tag with
      | none => rfl
      | some v => exact absurd (h tag v hm) (hn v)
    rw [lookup_setRequestedOptions, hnone, Option.none_or, if_pos hr, hv]

lemma FilledIn.insert (h : FilledIn cfg d m) {tag : OptionTag} {value : List UInt8}
    (ho : Own tag value) : FilledIn cfg d (m.insert tag value) where
  origin t v hl := by
    rcases lookup_insert_cases hl with ⟨rfl, rfl⟩ | ⟨-, hl⟩
    · exact Or.inl ho
    · exact h.origin t v hl
  requested t hr hn v hv := by
    have ht : t ≠ tag := fun ht => hn value (ht ▸ ho)
    rw [Finmap.lookup_insert_of_ne _ ht]
    exact h.requested t hr hn v hv

lemma FilledIn.setLeaseTime (h : FilledIn cfg d m) : FilledIn cfg d (setLeaseTime cfg m) := by
  unfold Daemon.setLeaseTime
  split_ifs
  · exact h
  · exact h.insert (own_number _ (Or.inr rfl))

lemma FilledIn.erase (h : FilledIn cfg d m) : FilledIn cfg d (m.erase LEASE_TIME) where
  origin t v hl := by
    by_cases ht : t = LEASE_TIME
    · rw [ht, Finmap.lookup_erase] at hl
      cases hl
    · rw [Finmap.lookup_erase_ne ht] at hl
      exact h.origin t v hl
  requested t hr hn v hv := by
    have ht : t ≠ LEASE_TIME := fun ht => hn [0, 0, 0, 0] (Or.inr ⟨Or.inr ht, rfl⟩)
    rw [Finmap.lookup_erase_ne ht]
    exact h.requested t hr hn v hv

lemma filledIn_offerOptions {options : Options} (h : AllOwn options) :
    FilledIn cfg d (offerOptions cfg d options) :=
  (AllOwn.filledIn ((h.insert (own_messageType _)).insert
    (own_number _ (Or.inl rfl)))).setLeaseTime

lemma filledIn_ackOptions : FilledIn cfg d (ackOptions cfg d) :=
  ((AllOwn.filledIn (allOwn_empty.insert (own_messageType _))).insert
    (own_number _ (Or.inl rfl))).setLeaseTime

lemma filledIn_informReply : FilledIn cfg d (informReply cfg d).options :=
  (AllOwn.filledIn allOwn_empty).erase

/-! ### Which packets are answered -/

structure GetsOffer (host : ByteOrder) (cfg : SubnetConfiguration) (env : Env) (d : DhcpDatagram)
    (leases : LeaseTable) : Prop where
  message : IsMessage d DHCP_TYPE_DISCOVER
  length : ¬ 6 < d.hwaddrLen
  answerable : Answerable d (updateLeases env.purge leases)
  address : ∃ offer, offerAddress host cfg (clientMac d)
    (wish host cfg d (updateLeases env.purge leases)) (updateLeases env.purge leases) = some offer

structure GetsAck (host : ByteOrder) (cfg : SubnetConfiguration) (env : Env) (d : DhcpDatagram)
    (leases : LeaseTable) : Prop where
  message : IsMessage d DHCP_TYPE_REQUEST
  length : ¬ 16 < d.hwaddrLen
  own : ∃ lease, (updateLeases env.purge leases).find? d.hwAddr = some lease ∧
    requestedAddress d = .ok lease.addr ∧ inSubnet host cfg lease.addr = true

structure GetsParameters (d : DhcpDatagram) : Prop where
  message : IsMessage d DHCP_TYPE_INFORM
  length : ¬ 16 < d.hwaddrLen
  destination : Unicast d d.clientIp → ¬ 14 < d.hwaddrLen

/-- The packet gets a reply that is filled in from the configuration. -/
def Fills (host : ByteOrder) (cfg : SubnetConfiguration) (env : Env) (d : DhcpDatagram)
    (leases : LeaseTable) : Prop :=
  GetsOffer host cfg env d leases ∨ GetsAck host cfg env d leases ∨ GetsParameters d

lemma allOwn_wantedAddress {wanted : UInt32} {options : Options}
    (h : wantedAddress host cfg env d leases = .ok (wanted, options)) : AllOwn options := by
  unfold wantedAddress at h
  split at h
  · obtain ⟨n, -, h⟩ := Config.bind_eq_ok.mp h
    dsimp only at h
    split_ifs at h
    · exact (Prod.mk.inj (Except.ok.inj h)).2 ▸ allOwn_empty
    · exact (Prod.mk.inj (Except.ok.inj h)).2 ▸ allOwn_empty
  · split_ifs at h
    · split at h
      · cases h
      · rw [← (Prod.mk.inj (Except.ok.inj h)).2]
        exact allOwn_empty.insert (own_number _ (Or.inr rfl))
    · exact (Prod.mk.inj (Except.ok.inj h)).2 ▸ allOwn_empty

lemma filledIn_discovery {e : SockaddrIn × DhcpDatagram}
    (he : e ∈ (handleDiscovery host cfg env d leases).enqueued) :
    FilledIn cfg d e.2.options := by
  unfold handleDiscovery at he
  split at he
  · cases he
  · dsimp only at he
    split at he
    · cases he
    · rename_i hw
      split at he
      · cases he
      · unfold Outcome.enqueue at he
        split at he
        · cases he
        · rw [List.mem_singleton.mp he]
          exact filledIn_offerOptions (allOwn_wantedAddress hw)

lemma enqueued_discovery (host : ByteOrder) (cfg : SubnetConfiguration) (env : Env)
    (leases : LeaseTable) (hm : IsMessage d DHCP_TYPE_DISCOVER) :
    (∃ e, (handleDiscovery host cfg env d leases).enqueued = [e]) ∧
        GetsOffer host cfg env d leases ∨
      (handleDiscovery host cfg env d leases).enqueued = [] ∧
        ¬ GetsOffer host cfg env d leases := by
  have h := discovered host cfg env d leases
  generalize handleDiscovery host cfg env d leases = o at h ⊢
  cases h with
  | overflow hlen => exact Or.inr ⟨rfl, fun h => h.length hlen⟩
  | refused hlen ha => exact Or.inr ⟨rfl, fun h => ha h.answerable⟩
  | exhausted hlen ha ho => exact Or.inr ⟨rfl, fun h => by simpa [ho] using h.address⟩
  | offered hlen ha ho dest options => exact Or.inl ⟨⟨_, rfl⟩, hm, hlen, ha, _, ho⟩

lemma enqueued_request (hm : IsMessage d DHCP_TYPE_REQUEST) (hlen : ¬ 16 < d.hwaddrLen) :
    (∃ e, (handleRequest host cfg env d leases).enqueued = [e] ∧ FilledIn cfg d e.2.options) ∧
        GetsAck host cfg env d leases ∨
      (∀ e ∈ (handleRequest host cfg env d leases).enqueued, e.2 = nak d) ∧
        ¬ GetsAck host cfg env d leases := by
  have h := requested host cfg env d leases
  generalize handleRequest host cfg env d leases = o at h ⊢
  cases h with
  | malformed hr =>
    refine Or.inr ⟨List.forall_mem_nil _, fun h => ?_⟩
    obtain ⟨lease, -, hok, -⟩ := h.own
    rw [hr] at hok
    cases hok
  | foreign hr hs dest =>
    refine Or.inr ⟨fun e he => by rw [List.mem_singleton.mp he], fun h => ?_⟩
    obtain ⟨lease, -, hok, hin⟩ := h.own
    rw [Except.ok.inj (hr.symm.trans hok), hin] at hs
    cases hs
  | refused hr hs hl dest =>
    refine Or.inr ⟨fun e he => by rw [List.mem_singleton.mp he], fun h => ?_⟩
    obtain ⟨lease, hfind, hok, -⟩ := h.own
    exact hl lease hfind (Except.ok.inj (hok.symm.trans hr))
  | granted hr hs hl hla dest =>
    subst hla
    exact Or.inl ⟨⟨_, rfl, filledIn_ackOptions⟩, hm, hlen, _, hl, hr, hs⟩

lemma enqueued_inform (host : ByteOrder) (cfg : SubnetConfiguration) (env : Env)
    (leases : LeaseTable) (hm : IsMessage d DHCP_TYPE_INFORM) (hlen : ¬ 16 < d.hwaddrLen) :
    (∃ dest, (handleInform host cfg env d leases).enqueued = [(dest, informReply cfg d)]) ∧
        GetsParameters d ∨
      (handleInform host cfg env d leases).enqueued = [] ∧ ¬ GetsParameters d := by
  have hiff : Caught (handleInform host cfg env d leases).result ↔
      (Unicast d d.clientIp → ¬ 14 < d.hwaddrLen) := inform_caught_iff
  have h := informed host cfg env d leases
  generalize handleInform host cfg env d leases = o at h hiff ⊢
  cases h with
  | overflow h =>
    refine Or.inr ⟨rfl, fun h => ?_⟩
    simpa [caught_throw_iff] using hiff.mpr h.destination
  | replied h => exact Or.inl ⟨⟨_, rfl⟩, hm, hlen, hiff.mp (Or.inl rfl)⟩

lemma Fills.length (h : Fills host cfg env d leases) : ¬ 16 < d.hwaddrLen := by
  rcases h with h | h | h
  · have h6 := h.length
    grind
  · exact h.length
  · exact h.length

/-- **A packet that is answered from the configuration** gets one reply, filled in from it. -/
theorem enqueued_of_fills (h : Fills host cfg env d leases) :
    ∃ e, (handleRecv host cfg env d leases).enqueued = [e] ∧ FilledIn cfg d e.2.options := by
  have hlen := h.length
  rcases h with h | h | h
  · rw [handleRecv_of_message hlen h.message, if_pos rfl]
    rcases enqueued_discovery host cfg env leases h.message with ⟨⟨e, he⟩, -⟩ | ⟨-, hn⟩
    · exact ⟨e, he, filledIn_discovery (by rw [he]; simp)⟩
    · exact absurd h hn
  · rw [handleRecv_of_message hlen h.message]
    rcases enqueued_request h.message hlen with ⟨he, -⟩ | ⟨-, hn⟩
    · exact he
    · exact absurd h hn
  · rw [handleRecv_of_message hlen h.message]
    rcases enqueued_inform host cfg env leases h.message hlen with ⟨⟨dest, he⟩, -⟩ | ⟨-, hn⟩
    · exact ⟨_, he, filledIn_informReply⟩
    · exact absurd h hn

/-- Every other packet gets a NAK, if any reply at all. -/
theorem eq_nak_of_not_fills (h : ¬ Fills host cfg env d leases) {e : SockaddrIn × DhcpDatagram}
    (he : e ∈ (handleRecv host cfg env d leases).enqueued) : e.2 = nak d := by
  have hlen : ¬ 16 < d.hwaddrLen := length_of_enqueued he
  have hd := handled host cfg env d leases
  generalize handleRecv host cfg env d leases = o at hd he
  cases hd with
  | overread h => cases he
  | ignored hop => cases he
  | untyped hop hn => cases he
  | unknown hm hu => cases he
  | discover hm =>
    rcases enqueued_discovery host cfg env leases hm with ⟨-, ho⟩ | ⟨hnil, -⟩
    · exact absurd (Or.inl ho) h
    · rw [hnil] at he
      cases he
  | request hm =>
    rcases enqueued_request hm hlen with ⟨-, hg⟩ | ⟨hnak, -⟩
    · exact absurd (Or.inr (Or.inl hg)) h
    · exact hnak e he
  | release hm => cases he
  | inform hm =>
    rcases enqueued_inform host cfg env leases hm hlen with ⟨-, hi⟩ | ⟨hnil, -⟩
    · exact absurd (Or.inr (Or.inr hi)) h
    · rw [hnil] at he
      cases he
  | decline hm =>
    rw [enqueued_decline] at he
    cases he

/-! ### What can be decoded -/

lemma legal_of_none {tag : OptionTag} (ht : Tagged tag) (hn : predefinedOptionLengths tag = none)
    (value : List UInt8) : Legal tag value := by
  refine ⟨ht, fun legal hl => ?_⟩
  rw [hn] at hl
  cases hl

lemma legal_of_some {tag : OptionTag} (ht : Tagged tag) {n : UInt8}
    (hn : predefinedOptionLengths tag = some n) {value : List UInt8}
    (hv : value.length = n.toNat) : Legal tag value := by
  refine ⟨ht, fun legal hl => ?_⟩
  rw [hn] at hl
  rw [hv, Option.some.inj hl]

lemma Own.legal {tag : OptionTag} {value : List UInt8} (h : Own tag value) : Legal tag value := by
  rcases h with ⟨rfl, hl⟩ | ⟨rfl | rfl, hl⟩
  · exact legal_of_some (by decide) (n := 1) (by decide) hl
  · exact legal_of_none (by decide) (by decide) value
  · exact legal_of_none (by decide) (by decide) value

lemma Own.length_le {tag : OptionTag} {value : List UInt8} (h : Own tag value) :
    value.length ≤ 255 := by
  rcases h with ⟨-, hl⟩ | ⟨-, hl⟩
  · omega
  · omega

lemma legal_of_accepted (h : Config.Accepted host cfg) {tag : OptionTag} {value : List UInt8}
    (hl : cfg.definedOptions.lookup tag = some value) : Legal tag value := by
  have hdef := Config.Served.onlyDefinable (Or.inr h) tag (Finmap.mem_of_lookup_eq_some hl)
  simp only [Config.definable, List.mem_cons, List.not_mem_nil, or_false] at hdef
  rcases hdef with rfl | rfl | rfl | rfl
  · -- the only one with a predefined length is written by `parse_configuration` itself
    rw [h.validated.subnetMask, Option.some.injEq] at hl
    exact legal_of_some (by decide) (n := 4) (by decide) (hl ▸ length_toByteArray _)
  · exact legal_of_none (by decide) (by decide) value
  · exact legal_of_none (by decide) (by decide) value
  · exact legal_of_none (by decide) (by decide) value

lemma length_le_of_own (h : Config.Accepted host cfg) {tag : OptionTag} {value : List UInt8}
    (hl : cfg.definedOptions.lookup tag = some value) {own : List UInt8} (ho : Own tag own) :
    value.length ≤ 255 := by
  have hdef := Config.Served.onlyDefinable (Or.inr h) tag (Finmap.mem_of_lookup_eq_some hl)
  rcases ho with ⟨rfl, -⟩ | ⟨rfl | rfl, -⟩
  · exact absurd hdef (by decide)
  · exact absurd hdef (by decide)
  · rw [h.validated.leaseTime, Option.some.injEq] at hl
    rw [← hl, length_toByteArray]
    omega

lemma FilledIn.decodable_iff_requested (h : Config.Accepted host cfg)
    {e : SockaddrIn × DhcpDatagram} (hf : FilledIn cfg d e.2.options) :
    Decodable host e ↔ ∀ tag ∈ requestList d, ∀ value,
      cfg.definedOptions.lookup tag = some value → value.length ≤ 255 := by
  rw [decodable_iff_short]
  · constructor
    · intro hs tag ht value hv
      by_cases ho : ∀ own, ¬ Own tag own
      · exact hs tag value (hf.requested tag ht ho value hv)
      · obtain ⟨own, ho⟩ := not_forall_not.mp ho
        exact length_le_of_own h hv ho
    · intro hs tag value hv
      rcases hf.origin tag value hv with ho | ⟨ht, hc⟩
      · exact ho.length_le
      · exact hs tag ht value hc
  · intro tag value hv
    rcases hf.origin tag value hv with ho | ⟨-, hc⟩
    · exact ho.legal
    · exact legal_of_accepted h hc

lemma decodable_nak (host : ByteOrder) (dest : SockaddrIn) (d : DhcpDatagram) :
    Decodable host (dest, nak d) := by
  have hown : AllOwn (nak d).options := allOwn_empty.insert (own_messageType _)
  rw [decodable_iff_short]
  · exact fun tag value hv => (hown tag value hv).length_le
  · exact fun tag value hv => (hown tag value hv).legal

/-- **Replies can be decoded** exactly if they are not filled in from the configuration or none
of the requested options has more than the 255 bytes that the length byte can say. -/
theorem decodable_iff (host : ByteOrder) (cfg : SubnetConfiguration) (env : Env)
    (d : DhcpDatagram) (leases : LeaseTable) (h : Config.Accepted host cfg) :
    (∀ e ∈ (handleRecv host cfg env d leases).enqueued, Decodable host e) ↔
      (Fills host cfg env d leases → ∀ tag ∈ requestList d, ∀ value,
        cfg.definedOptions.lookup tag = some value → value.length ≤ 255) := by
  by_cases hf : Fills host cfg env d leases
  · obtain ⟨e, he, hfilled⟩ := enqueued_of_fills hf
    rw [he, List.forall_mem_singleton, hfilled.decodable_iff_requested h]
    exact ⟨fun hs _ => hs, fun hs => hs hf⟩
  · refine iff_of_true (fun e he => ?_) fun hc => absurd hc hf
    obtain ⟨dest, reply⟩ := e
    obtain rfl := eq_nak_of_not_fills hf he
    exact decodable_nak host dest d

def asking : DhcpDatagram :=
  { message DHCP_TYPE_INFORM (client 1) none with
    options := ((∅ : Options).insert DHCP_MESSAGE_TYPE [DHCP_TYPE_INFORM]).insert
      PARAMETER_REQUEST_LIST [ROUTERS] }

theorem decodable_iff_asking :
    (∀ e ∈ (handleRecv .little Config.exampleConfig at100 asking .empty).enqueued,
        Decodable .little e) ↔
      (Fills .little Config.exampleConfig at100 asking .empty →
        ∀ tag ∈ requestList asking, ∀ value,
          Config.exampleConfig.definedOptions.lookup tag = some value → value.length ≤ 255) :=
  decodable_iff .little Config.exampleConfig at100 asking .empty Config.accepted_exampleConfig

def manyRouters : Config.Setting := .group
  [("interface", .string "eth0".toList),
   ("subnet", .group
    [("net-address", .string "10.0.0.0".toList),
     ("netmask", .string "255.0.0.0".toList),
     ("range-start", .string "10.0.0.10".toList),
     ("range-end", .string "10.0.0.20".toList),
     ("options", .group
      [("routers", .array (List.replicate 64 (.string "10.0.0.1".toList)))])])]

/-- What a little-endian host makes of it. -/
def crowded : SubnetConfiguration :=
  (Config.parseConfiguration .little .zero (.ok manyRouters) ⟨0, [], [], .zero⟩).2.subnetConfig

/-- The 256 bytes of the routers go out with the length byte 0. -/
theorem many_routers_undecodable :
    Config.Accepted .little crowded ∧
      ∃ e ∈ (handleRecv .little crowded at100 asking .empty).enqueued, ¬ Decodable .little e := by
  refine ⟨⟨_, _, _, by decide +kernel, rfl⟩, ?_⟩
  have hlong : ∃ e ∈ (handleRecv .little crowded at100 asking .empty).enqueued,
      (e.2.options.lookup ROUTERS).map List.length = some 256 := by decide +kernel
  obtain ⟨e, he, hlen⟩ := hlong
  obtain ⟨value, hv, hlen⟩ := Option.map_eq_some_iff.mp hlen
  refine ⟨e, he, fun hd => ?_⟩
  obtain ⟨entries, hi⟩ := exists_iterates e.2.options
  obtain ⟨bytes, -, hp⟩ := hd entries .sent [] hi
  have hle := length_le_of_parseOptions hp hv
  omega

end TinyDhcpd.Transmit
