import TinyDhcpd.Receive

/-!
The replies that are enqueued, with all that is known about each, and where they go to.

An address is a number in host order in the packet and in the lease table, and in network
order in the configuration and in a destination; both are of type `in_addr_t`. The handler of
DISCOVER converts before it determines the destination, that of INFORM does not, and the
broadcast address is put together from one number of either kind.
-/

namespace TinyDhcpd.Answer

open Bytes OptionTag Daemon Receive

variable {host : ByteOrder} {cfg : SubnetConfiguration} {env : Env} {d : DhcpDatagram}
  {leases : LeaseTable}

/-- What a packet is answered with: the destination, the reply and the leases that are left. -/
inductive Replied (host : ByteOrder) (cfg : SubnetConfiguration) (env : Env) (d : DhcpDatagram)
    (leases : LeaseTable) : SockaddrIn → DhcpDatagram → LeaseTable → Prop
  | offer {dest : SockaddrIn} {wanted offer : UInt32} {options : Options}
    (hm : IsMessage d DHCP_TYPE_DISCOVER) (hlen : ¬ 6 < d.hwaddrLen)
    (hw : wantedAddress host cfg env d (updateLeases env.purge leases) = .ok (wanted, options))
    (ho : offerAddress host cfg (clientMac d) wanted (updateLeases env.purge leases) = some offer)
    (hd : getReplyDestination host cfg env d (htonl host offer) = .ok dest) :
    Replied host cfg env d leases dest (offerReply cfg d options offer)
      ((updateLeases env.purge leases).insert d.hwAddr ⟨offer, env.stamp + 10⟩)
  | nak {dest : SockaddrIn} {left : LeaseTable} (hm : IsMessage d DHCP_TYPE_REQUEST)
    (hd : getReplyDestination host cfg env d INADDR_ANY = .ok dest) :
    Replied host cfg env d leases dest (nak d) left
  | ack {dest : SockaddrIn} {lease : Lease} (hm : IsMessage d DHCP_TYPE_REQUEST)
    (hl : (updateLeases env.purge leases).find? d.hwAddr = some lease)
    (hr : requestedAddress d = .ok lease.addr) (hs : inSubnet host cfg lease.addr = true)
    (hd : getReplyDestination host cfg env d INADDR_ANY = .ok dest) :
    Replied host cfg env d leases dest (ack cfg d lease.addr)
      ((updateLeases env.purge leases).insert d.hwAddr
        ⟨lease.addr, env.stamp + cfg.leaseTimeSeconds.toUInt64⟩)
  | inform {dest : SockaddrIn} (hm : IsMessage d DHCP_TYPE_INFORM)
    (hd : getReplyDestination host cfg env d d.clientIp = .ok dest) :
    Replied host cfg env d leases dest (informReply cfg d) leases

lemma mem_enqueue {left : LeaseTable} {destination : Except Fault SockaddrIn}
    {reply : DhcpDatagram} {e : SockaddrIn × DhcpDatagram}
    (he : e ∈ (Outcome.enqueue left destination reply).enqueued) :
    destination = .ok e.1 ∧ e.2 = reply ∧
      (Outcome.enqueue left destination reply).leases = left := by
  cases destination with
  | error fault => cases he
  | ok dest =>
    rw [List.mem_singleton.mp he]
    exact ⟨rfl, rfl, rfl⟩

lemma replied_discovery (hm : IsMessage d DHCP_TYPE_DISCOVER) {e : SockaddrIn × DhcpDatagram}
    (he : e ∈ (handleDiscovery host cfg env d leases).enqueued) :
    Replied host cfg env d leases e.1 e.2 (handleDiscovery host cfg env d leases).leases := by
  unfold handleDiscovery requestHwaddr at he ⊢
  by_cases hlen : 6 < d.hwaddrLen
  · rw [if_pos hlen] at he
    cases he
  rw [if_neg hlen] at he ⊢
  dsimp only at he ⊢
  cases hw : wantedAddress host cfg env d (updateLeases env.purge leases) with
  | error fault =>
    rw [hw] at he
    cases he
  | ok result =>
    obtain ⟨wanted, options⟩ := result
    rw [hw] at he
    dsimp only at he ⊢
    cases ho : offerAddress host cfg (clientMac d) wanted (updateLeases env.purge leases) with
    | none =>
      rw [ho] at he
      cases he
    | some offer =>
      rw [ho] at he
      dsimp only at he ⊢
      obtain ⟨hd, hreply, hleases⟩ := mem_enqueue he
      rw [hreply, hleases]
      exact .offer hm hlen hw ho hd

lemma replied_request (hm : IsMessage d DHCP_TYPE_REQUEST) {e : SockaddrIn × DhcpDatagram}
    (he : e ∈ (handleRequest host cfg env d leases).enqueued) :
    Replied host cfg env d leases e.1 e.2 (handleRequest host cfg env d leases).leases := by
  unfold handleRequest at he ⊢
  cases hr : requestedAddress d with
  | error fault =>
    rw [hr] at he
    cases he
  | ok address =>
    rw [hr] at he
    dsimp only at he ⊢
    by_cases hs : inSubnet host cfg address = true
    · rw [if_neg (not_not.mpr hs)] at he ⊢
      cases hl : (updateLeases env.purge leases).find? d.hwAddr with
      | none =>
        rw [hl] at he
        obtain ⟨hd, hreply, -⟩ := mem_enqueue he
        rw [hreply]
        exact .nak hm hd
      | some lease =>
        rw [hl] at he
        dsimp only at he ⊢
        by_cases hla : lease.addr = address
        · rw [if_pos hla] at he ⊢
          obtain ⟨hd, hreply, hleases⟩ := mem_enqueue he
          rw [hreply, hleases, ← hla]
          exact .ack hm hl (hla ▸ hr) (hla ▸ hs) hd
        · rw [if_neg hla] at he
          obtain ⟨hd, hreply, -⟩ := mem_enqueue he
          rw [hreply]
          exact .nak hm hd
    · rw [if_pos hs] at he
      obtain ⟨hd, hreply, -⟩ := mem_enqueue he
      rw [hreply]
      exact .nak hm hd

/-- **Every reply is one of four.** -/
theorem replied {e : SockaddrIn × DhcpDatagram}
    (he : e ∈ (handleRecv host cfg env d leases).enqueued) :
    Replied host cfg env d leases e.1 e.2 (handleRecv host cfg env d leases).leases := by
  have h := handled host cfg env d leases
  generalize handleRecv host cfg env d leases = o at h he ⊢
  cases h with
  | overread h => cases he
  | ignored hop => cases he
  | untyped hop hn => cases he
  | unknown hm hu => cases he
  | discover hm => exact replied_discovery hm he
  | request hm => exact replied_request hm he
  | release hm => cases he
  | inform hm =>
    obtain ⟨hd, hreply, hleases⟩ := mem_enqueue he
    rw [handleInform, hleases, hreply]
    exact .inform hm hd
  | decline hm =>
    rw [enqueued_decline] at he
    cases he

/-! ### Destinations -/

instance (d : DhcpDatagram) (address : UInt32) : Decidable (Unicast d address) :=
  inferInstanceAs (Decidable (¬ _))

/-- The address a reply is for, in host order: the one that is offered, or the one the sender of
an INFORM has. A REQUEST is answered by broadcast. -/
def addressee (d reply : DhcpDatagram) : UInt32 :=
  if IsMessage d DHCP_TYPE_DISCOVER then reply.assignedIp
  else if IsMessage d DHCP_TYPE_INFORM then d.clientIp
  else INADDR_ANY

/-- The broadcast address in network order. The fallback is computed in host order. -/
def broadcastAddress (host : ByteOrder) (cfg : SubnetConfiguration) (env : Env)
    (d : DhcpDatagram) : UInt32 :=
  env.brdaddr.getD (htonl host (d.recvAddr ||| ~~~ ntohl host cfg.netmask))

/-- The destination is in network order. -/
def NetworkOrder (host : ByteOrder) (cfg : SubnetConfiguration) (env : Env) (d : DhcpDatagram)
    (e : SockaddrIn × DhcpDatagram) : Prop :=
  e.1.sinAddr = if Unicast d (addressee d e.2) then htonl host (addressee d e.2)
    else broadcastAddress host cfg env d

instance (host : ByteOrder) (cfg : SubnetConfiguration) (env : Env) (d : DhcpDatagram)
    (e : SockaddrIn × DhcpDatagram) : Decidable (NetworkOrder host cfg env d e) :=
  inferInstanceAs (Decidable (_ = _))

/-- The address a packet asks to be answered at, as the handler finds it. -/
def replyAddress (host : ByteOrder) (cfg : SubnetConfiguration) (env : Env) (d : DhcpDatagram)
    (leases : LeaseTable) : UInt32 :=
  let live := updateLeases env.purge leases
  if IsMessage d DHCP_TYPE_DISCOVER then
    (offerAddress host cfg (clientMac d) (wish host cfg d live) live).getD INADDR_ANY
  else if IsMessage d DHCP_TYPE_INFORM then d.clientIp
  else INADDR_ANY

/-- The condition on the packet: the `ciaddr` of an INFORM that is answered by unicast, and the
network part of the address a fallback is computed from, are the same in both orders. -/
structure OrderFree (host : ByteOrder) (cfg : SubnetConfiguration) (env : Env)
    (d : DhcpDatagram) (leases : LeaseTable) : Prop where
  inform : IsMessage d DHCP_TYPE_INFORM → Unicast d d.clientIp →
    htonl host d.clientIp = d.clientIp
  fallback : ¬ Unicast d (replyAddress host cfg env d leases) → env.brdaddr = none →
    d.recvAddr &&& cfg.netmask = htonl host d.recvAddr &&& cfg.netmask

lemma htonl_eq_zero_iff (host : ByteOrder) (a : UInt32) : htonl host a = 0 ↔ a = 0 := by
  have hz : ∀ host, htonl host 0 = 0 := by
    intro host
    cases host <;> decide
  constructor
  · intro h
    rw [← ntohl_htonl host a, h]
    exact hz host
  · rintro rfl
    exact hz host

lemma unicast_htonl_iff (host : ByteOrder) (a : UInt32) :
    Unicast d (htonl host a) ↔ Unicast d a := by
  simp only [Unicast, INADDR_ANY, htonl_eq_zero_iff]

lemma or_not_eq_iff (a b m : UInt32) : a ||| ~~~m = b ||| ~~~m ↔ a &&& m = b &&& m := by
  rw [← UInt32.toBitVec_inj, ← UInt32.toBitVec_inj, BitVec.eq_of_getLsbD_eq_iff,
    BitVec.eq_of_getLsbD_eq_iff]
  refine forall_congr' fun k => forall_congr' fun hk => ?_
  simp only [UInt32.toBitVec_and, UInt32.toBitVec_or, UInt32.toBitVec_not, BitVec.getLsbD_and,
    BitVec.getLsbD_or, BitVec.getLsbD_not, hk, decide_true, Bool.true_and]
  -- where the mask is zero both sides hold, where it is one both compare `a` and `b`
  cases m.toBitVec.getLsbD k <;> simp

lemma sinAddr_getReplyDestination {address : UInt32} {dest : SockaddrIn}
    (h : getReplyDestination host cfg env d address = .ok dest) :
    dest.sinAddr = if Unicast d address then address
      else env.brdaddr.getD (d.recvAddr ||| ~~~cfg.netmask) := by
  unfold getReplyDestination at h
  split_ifs at h with hb h14
  · have hu : ¬ Unicast d address := not_not.mpr hb
    rw [if_neg hu]
    cases hbrd : env.brdaddr with
    | none =>
      rw [hbrd] at h
      rw [← Except.ok.inj h]
      rfl
    | some address =>
      rw [hbrd] at h
      rw [← Except.ok.inj h]
      rfl
  · have hu : Unicast d address := hb
    rw [if_pos hu, ← Except.ok.inj h]

lemma not_unicast_any (d : DhcpDatagram) : ¬ Unicast d INADDR_ANY :=
  fun h => h (Or.inr (Or.inr (Or.inr rfl)))

lemma fallback_eq_iff :
    env.brdaddr.getD (d.recvAddr ||| ~~~cfg.netmask) = broadcastAddress host cfg env d ↔
      (env.brdaddr = none →
        d.recvAddr &&& cfg.netmask = htonl host d.recvAddr &&& cfg.netmask) := by
  unfold broadcastAddress
  cases env.brdaddr with
  | some address => simp
  | none =>
    simp only [Option.getD_none, forall_const]
    rw [htonl_or, htonl_not, htonl_ntohl, or_not_eq_iff]

lemma eq_wish_of_wantedAddress {wanted : UInt32} {options : Options}
    (h : wantedAddress host cfg env d leases = .ok (wanted, options)) :
    wanted = wish host cfg d leases := by
  by_cases ha : Answerable d leases
  · obtain ⟨m, hm⟩ := wantedAddress_of_answerable host cfg env ha
    rw [hm] at h
    exact (Prod.mk.inj (Except.ok.inj h)).1.symm
  · rw [wantedAddress_of_not_answerable ha] at h
    cases h

lemma networkOrder_request_iff (hm : IsMessage d DHCP_TYPE_REQUEST) {dest : SockaddrIn}
    (reply : DhcpDatagram) (hd : getReplyDestination host cfg env d INADDR_ANY = .ok dest) :
    NetworkOrder host cfg env d (dest, reply) ↔ OrderFree host cfg env d leases := by
  have h1 : ¬ IsMessage d DHCP_TYPE_DISCOVER := hm.not_of_ne (by decide)
  have h8 : ¬ IsMessage d DHCP_TYPE_INFORM := hm.not_of_ne (by decide)
  have hto : addressee d reply = INADDR_ANY := by rw [addressee, if_neg h1, if_neg h8]
  have hat : replyAddress host cfg env d leases = INADDR_ANY := by
    rw [replyAddress, if_neg h1, if_neg h8]
  rw [NetworkOrder, hto, sinAddr_getReplyDestination hd, if_neg (not_unicast_any d),
    if_neg (not_unicast_any d), fallback_eq_iff]
  exact ⟨fun hf => ⟨fun hc => absurd hc h8, fun _ => hf⟩,
    fun hf => hf.fallback (hat ▸ not_unicast_any d)⟩

lemma networkOrder_offer_iff (hm : IsMessage d DHCP_TYPE_DISCOVER) {dest : SockaddrIn}
    {reply : DhcpDatagram} (hat : replyAddress host cfg env d leases = reply.assignedIp)
    (hd : getReplyDestination host cfg env d (htonl host reply.assignedIp) = .ok dest) :
    NetworkOrder host cfg env d (dest, reply) ↔ OrderFree host cfg env d leases := by
  have h8 : ¬ IsMessage d DHCP_TYPE_INFORM := hm.not_of_ne (by decide)
  have hto : addressee d reply = reply.assignedIp := if_pos hm
  rw [NetworkOrder, hto, sinAddr_getReplyDestination hd]
  by_cases hu : Unicast d reply.assignedIp
  · rw [if_pos ((unicast_htonl_iff host _).mpr hu), if_pos hu]
    exact iff_of_true rfl ⟨fun hc => absurd hc h8, fun hc => absurd (hat ▸ hu) hc⟩
  · rw [if_neg fun hc => hu ((unicast_htonl_iff host _).mp hc), if_neg hu, fallback_eq_iff]
    exact ⟨fun hf => ⟨fun hc => absurd hc h8, fun _ => hf⟩, fun hf => hf.fallback (hat ▸ hu)⟩

lemma networkOrder_inform_iff (hm : IsMessage d DHCP_TYPE_INFORM) {dest : SockaddrIn}
    (reply : DhcpDatagram) (hd : getReplyDestination host cfg env d d.clientIp = .ok dest) :
    NetworkOrder host cfg env d (dest, reply) ↔ OrderFree host cfg env d leases := by
  have h1 : ¬ IsMessage d DHCP_TYPE_DISCOVER := hm.not_of_ne (by decide)
  have hto : addressee d reply = d.clientIp := by rw [addressee, if_neg h1, if_pos hm]
  have hat : replyAddress host cfg env d leases = d.clientIp := by
    rw [replyAddress, if_neg h1, if_pos hm]
  rw [NetworkOrder, hto, sinAddr_getReplyDestination hd]
  by_cases hu : Unicast d d.clientIp
  · rw [if_pos hu, if_pos hu, eq_comm]
    exact ⟨fun heq => ⟨fun _ _ => heq, fun hc => absurd (hat ▸ hu) hc⟩, fun hf => hf.inform hm hu⟩
  · rw [if_neg hu, if_neg hu, fallback_eq_iff]
    exact ⟨fun hf => ⟨fun _ hc => absurd hc hu, fun _ => hf⟩, fun hf => hf.fallback (hat ▸ hu)⟩

/-- **Destinations are in network order** exactly if the order makes no difference where it is
forgotten: in the `ciaddr` of an INFORM, and in the fallback for the broadcast address. -/
theorem networkOrder_iff (host : ByteOrder) (cfg : SubnetConfiguration) (env : Env)
    (d : DhcpDatagram) (leases : LeaseTable) (e : SockaddrIn × DhcpDatagram)
    (he : e ∈ (handleRecv host cfg env d leases).enqueued) :
    NetworkOrder host cfg env d e ↔ OrderFree host cfg env d leases := by
  obtain ⟨dest, reply⟩ := e
  have h := replied he
  generalize (handleRecv host cfg env d leases).leases = left at h
  dsimp only at h
  cases h with
  | offer hm hlen hw ho hd =>
    refine networkOrder_offer_iff hm ?_ hd
    rw [eq_wish_of_wantedAddress hw] at ho
    simp only [replyAddress, if_pos hm, ho, Option.getD_some]
    rfl
  | nak hm hd => exact networkOrder_request_iff hm _ hd
  | ack hm hl hr hs hd => exact networkOrder_request_iff hm _ hd
  | inform hm hd => exact networkOrder_inform_iff hm _ hd

def informingFrom : DhcpDatagram :=
  { message DHCP_TYPE_INFORM (client 1) none with clientIp := 0x7f000a14 }

theorem networkOrder_iff_informingFrom :
    ∃ e ∈ (handleRecv .little Config.exampleConfig at100 informingFrom .empty).enqueued,
      NetworkOrder .little Config.exampleConfig at100 informingFrom e ↔
        OrderFree .little Config.exampleConfig at100 informingFrom .empty := by
  have hne : (handleRecv .little Config.exampleConfig at100 informingFrom .empty).enqueued ≠
      [] := by decide +kernel
  obtain ⟨e, he⟩ := List.exists_mem_of_ne_nil _ hne
  exact ⟨e, he, networkOrder_iff .little Config.exampleConfig at100 informingFrom .empty e he⟩

/-- The reply to it goes to 20.10.0.127, the address spelled backwards. -/
theorem inform_reply_misdirected :
    ∃ e ∈ (handleRecv .little Config.exampleConfig at100 informingFrom .empty).enqueued,
      ¬ NetworkOrder .little Config.exampleConfig at100 informingFrom e := by
  decide +kernel

end TinyDhcpd.Answer
