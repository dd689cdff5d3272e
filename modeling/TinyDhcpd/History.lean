import TinyDhcpd.Handlers

/-!
The lease table and the messages it comes from.

What a client sees of its lease are the OFFERs and ACKs that are sent to it and the RELEASEs
it sends. The last of these messages determines the client's entry in the table, as far as it
is alive, and so whether its next REQUEST is granted.
-/

namespace TinyDhcpd.History

open Bytes OptionTag Daemon Run

/-- A message that concerns the lease of a client: an address that is offered or confirmed,
with the time it is recorded at, or a release. -/
inductive LeaseEvent
  | offer (address : UInt32) (time : ℕ)
  | ack (address : UInt32) (time : ℕ)
  | release
  deriving DecidableEq

/-- What an enqueued reply says about the lease of a client. -/
def replyEvent (key : HwAddr) (stamp : UInt64) (reply : DhcpDatagram) : Option LeaseEvent :=
  if reply.hwAddr ≠ key then none
  else if HasType reply DHCP_TYPE_OFFER then some (.offer reply.assignedIp stamp.toNat)
  else if HasType reply DHCP_TYPE_ACK then some (.ack reply.assignedIp stamp.toNat)
  else none

/-- The lease events of a client in one step: its RELEASE, and the replies sent to it. -/
def leaseEvents (host : ByteOrder) (cfg : SubnetConfiguration) (key : HwAddr) (s : State)
    (ev : Event) : List LeaseEvent :=
  (if IsMessage ev.datagram DHCP_TYPE_RELEASE ∧ ev.datagram.hwAddr = key then [.release]
    else []) ++
    (handle host cfg s ev).enqueued.filterMap fun e => replyEvent key ev.env.stamp e.2

/-- The lease events of a client in a run from the start. -/
def history (host : ByteOrder) (cfg : SubnetConfiguration) (key : HwAddr) (es : List Event) :
    List LeaseEvent :=
  (outs (step host cfg) (leaseEvents host cfg key) init es).flatten

/-- The address a client holds after its last lease event, and until when. -/
def held (cfg : SubnetConfiguration) : Option LeaseEvent → Option (UInt32 × ℕ)
  | some (.offer address time) => some (address, time + 10)
  | some (.ack address time) => some (address, time + cfg.leaseTimeSeconds.toNat)
  | some .release => none
  | none => none

/-- The last lease event is an offer or a confirmation of the address that is still good. -/
def Holds (cfg : SubnetConfiguration) (last : Option LeaseEvent) (address : UInt32)
    (time : UInt64) : Prop :=
  (∃ t₀, last = some (.offer address t₀) ∧ time.toNat < t₀ + 10) ∨
    ∃ t₀, last = some (.ack address t₀) ∧ time.toNat < t₀ + cfg.leaseTimeSeconds.toNat

lemma holds_iff_held {cfg : SubnetConfiguration} {last : Option LeaseEvent} {address : UInt32}
    {time : UInt64} :
    Holds cfg last address time ↔ ∃ n, held cfg last = some (address, n) ∧ time.toNat < n := by
  unfold Holds held
  constructor
  · rintro (⟨t₀, rfl, ht⟩ | ⟨t₀, rfl, ht⟩)
    · exact ⟨_, rfl, ht⟩
    · exact ⟨_, rfl, ht⟩
  · rintro ⟨n, hn, ht⟩
    split at hn
    · cases hn
      exact Or.inl ⟨_, rfl, ht⟩
    · cases hn
      exact Or.inr ⟨_, rfl, ht⟩
    · cases hn
    · cases hn

/-! ### The invariant -/

/-- As far as it is alive, the entry of the client is what it holds after its last lease
event. The second part keeps the times inside of their type. -/
structure Tracks (cfg : SubnetConfiguration) (key : HwAddr) (last : Option LeaseEvent)
    (s : State) : Prop where
  alive : ∀ address expiry, s.clock < expiry →
    (s.leases.find? key = some ⟨address, expiry⟩ ↔ held cfg last = some (address, expiry.toNat))
  fits : ∀ address n, held cfg last = some (address, n) → n < 2 ^ 64

variable {host : ByteOrder} {cfg : SubnetConfiguration} {key : HwAddr}
  {last : Option LeaseEvent} {s : State}

lemma tracks_init (key : HwAddr) : Tracks cfg key none init where
  alive _ _ _ := by simp [init, held]
  fits _ _ h := by cases h

lemma Tracks.frame (h : Tracks cfg key last s) {leases : LeaseTable} {clock : UInt64}
    (hc : s.clock ≤ clock) (hl : ∀ lease, clock < lease.expiry →
      (leases.find? key = some lease ↔ s.leases.find? key = some lease)) :
    Tracks cfg key last ⟨leases, clock⟩ where
  alive address expiry he := by
    rw [hl ⟨address, expiry⟩ he]
    exact h.alive address expiry (by grind)
  fits := h.fits

lemma tracks_insert {event : LeaseEvent} {address : UInt32} {expiry : UInt64}
    (hh : held cfg (some event) = some (address, expiry.toNat)) (leases : LeaseTable)
    (clock : UInt64) :
    Tracks cfg key (some event) ⟨leases.insert key ⟨address, expiry⟩, clock⟩ where
  alive a e _ := by
    rw [OrdMap.find?_insert_self, hh]
    simp [UInt64.toNat_inj]
  fits a n hn := by
    rw [hh] at hn
    cases hn
    exact expiry.toNat_lt

lemma tracks_erase (leases : LeaseTable) (clock : UInt64) :
    Tracks cfg key (some .release) ⟨leases.erase key, clock⟩ where
  alive a e _ := by simp [OrdMap.find?_erase, held]
  fits a n hn := by cases hn

lemma Tracks.holds_iff (h : Tracks cfg key last s) {time : UInt64} (ht : s.clock ≤ time)
    (address : UInt32) :
    (∃ lease, (updateLeases time s.leases).find? key = some lease ∧ lease.addr = address) ↔
      Holds cfg last address time := by
  rw [holds_iff_held]
  constructor
  · rintro ⟨⟨a, expiry⟩, hl, rfl⟩
    obtain ⟨hl, he⟩ := find?_updateLeases_eq_some.mp hl
    have hlt : s.clock < expiry := UInt64.lt_of_le_of_lt ht he
    exact ⟨expiry.toNat, (h.alive a expiry hlt).mp hl, UInt64.lt_iff_toNat_lt.mp he⟩
  · rintro ⟨n, hn, htn⟩
    have hfit : (UInt64.ofNat n).toNat = n := UInt64.toNat_ofNat_of_lt' (h.fits address n hn)
    have he : time < UInt64.ofNat n := by
      rw [UInt64.lt_iff_toNat_lt, hfit]
      exact htn
    have hlt : s.clock < UInt64.ofNat n := UInt64.lt_of_le_of_lt ht he
    refine ⟨⟨address, UInt64.ofNat n⟩, find?_updateLeases_eq_some.mpr ⟨?_, he⟩, rfl⟩
    exact (h.alive address _ hlt).mpr (by rw [hfit]; exact hn)

/-! ### One step -/

variable {env : Env} {d : DhcpDatagram} {stamp : UInt64} {ev : Event} {past : List LeaseEvent}

lemma replyEvent_offer (options : Options) (offer : UInt32) :
    replyEvent key stamp (offerReply cfg d options offer) =
      if d.hwAddr = key then some (.offer offer stamp.toNat) else none := by
  have hty : HasType (offerReply cfg d options offer) DHCP_TYPE_OFFER := hasType_offerReply _ _
  simp only [replyEvent, if_pos hty, ite_not]
  rfl

lemma replyEvent_ack (address : UInt32) :
    replyEvent key stamp (ack cfg d address) =
      if d.hwAddr = key then some (.ack address stamp.toNat) else none := by
  have hty : HasType (ack cfg d address) DHCP_TYPE_ACK := hasType_ack address
  have hno : ¬ HasType (ack cfg d address) DHCP_TYPE_OFFER :=
    hty.not_of_ne (by decide)
  simp only [replyEvent, if_pos hty, if_neg hno, ite_not]
  rfl

lemma replyEvent_nak : replyEvent key stamp (nak d) = none := by
  have h2 : ¬ HasType (nak d) DHCP_TYPE_OFFER := hasType_nak.not_of_ne (by decide)
  have h5 : ¬ HasType (nak d) DHCP_TYPE_ACK := hasType_nak.not_of_ne (by decide)
  simp only [replyEvent, if_neg h2, if_neg h5, ite_self]

lemma find?_purge {purge clock : UInt64} (hpc : purge ≤ clock) (leases : LeaseTable)
    (key : HwAddr) (lease : Lease) (he : clock < lease.expiry) :
    (updateLeases purge leases).find? key = some lease ↔ leases.find? key = some lease := by
  rw [find?_updateLeases_eq_some]
  exact and_iff_left (UInt64.lt_of_le_of_lt hpc he)

lemma Tracks.grant (h : Tracks cfg key past.getLast? s) {purge clock : UInt64}
    (hp : s.clock ≤ purge) (hpc : purge ≤ clock) {event : LeaseEvent} {address : UInt32}
    {expiry : UInt64} (hh : held cfg (some event) = some (address, expiry.toNat)) (k : HwAddr) :
    Tracks cfg key (past ++ (if k = key then some event else none).toList).getLast?
      ⟨(updateLeases purge s.leases).insert k ⟨address, expiry⟩, clock⟩ := by
  by_cases hk : k = key
  · rw [if_pos hk, Option.toList_some, List.getLast?_append, List.getLast?_singleton,
      Option.some_or, hk]
    exact tracks_insert hh _ _
  · rw [if_neg hk, Option.toList_none, List.append_nil]
    refine h.frame (UInt64.le_trans hp hpc) fun lease he => ?_
    rw [OrdMap.find?_insert_of_ne _ _ (Ne.symm hk)]
    exact find?_purge hpc _ _ lease he

lemma filterMap_singleton (dest : SockaddrIn) (reply : DhcpDatagram) :
    [(dest, reply)].filterMap (fun e => replyEvent key stamp e.2) =
      (replyEvent key stamp reply).toList := by
  cases h : replyEvent key stamp reply <;> simp [h]

lemma tracks_discovery (h : Tracks cfg key past.getLast? s) (ht : s.clock ≤ env.purge) :
    Tracks cfg key (past ++ (handleDiscovery host cfg env d s.leases).enqueued.filterMap
      fun e => replyEvent key env.stamp e.2).getLast?
      ⟨(handleDiscovery host cfg env d s.leases).leases, env.stamp⟩ := by
  have hps := env.purge_le_stamp
  have hclock : s.clock ≤ env.stamp := UInt64.le_trans ht hps
  have hd := discovered host cfg env d s.leases
  generalize handleDiscovery host cfg env d s.leases = o at hd ⊢
  cases hd with
  | overflow hlen => simpa [Outcome.throw] using h.frame hclock fun _ _ => Iff.rfl
  | refused hlen ha => simpa [Outcome.throw] using h.frame hclock (find?_purge hps _ _)
  | exhausted hlen ha ho => simpa [Outcome.ret] using h.frame hclock (find?_purge hps _ _)
  | offered hlen ha ho dest options =>
    rw [filterMap_singleton, replyEvent_offer]
    exact h.grant ht hps (by rw [env.toNat_stamp_add (by decide)]; rfl) d.hwAddr

lemma tracks_request (h : Tracks cfg key past.getLast? s) (ht : s.clock ≤ env.purge) :
    Tracks cfg key (past ++ (handleRequest host cfg env d s.leases).enqueued.filterMap
      fun e => replyEvent key env.stamp e.2).getLast?
      ⟨(handleRequest host cfg env d s.leases).leases, env.stamp⟩ := by
  have hps := env.purge_le_stamp
  have hclock : s.clock ≤ env.stamp := UInt64.le_trans ht hps
  have hr := requested host cfg env d s.leases
  generalize handleRequest host cfg env d s.leases = o at hr ⊢
  cases hr with
  | malformed hr => simpa [Outcome.throw] using h.frame hclock fun _ _ => Iff.rfl
  | foreign hr hs dest =>
    rw [filterMap_singleton, replyEvent_nak, Option.toList_none, List.append_nil]
    exact h.frame hclock fun _ _ => Iff.rfl
  | refused hr hs hl dest =>
    rw [filterMap_singleton, replyEvent_nak, Option.toList_none, List.append_nil]
    exact h.frame hclock (find?_purge hps _ _)
  | granted hr hs hl hla dest =>
    have hlt : cfg.leaseTimeSeconds.toUInt64.toNat < 2 ^ 32 := by
      rw [UInt32.toNat_toUInt64]
      exact cfg.leaseTimeSeconds.toNat_lt
    rw [filterMap_singleton, replyEvent_ack]
    exact h.grant ht hps (by rw [env.toNat_stamp_add hlt, UInt32.toNat_toUInt64]; rfl) d.hwAddr

/-- **One step.** The invariant is kept by every packet of every client. -/
theorem tracks_step (hopt : DHCP_MESSAGE_TYPE ∉ cfg.definedOptions) (hz : key ≠ HwAddr.zero)
    (h : Tracks cfg key past.getLast? s) (hp : Proper host cfg s ev) :
    Tracks cfg key (past ++ leaseEvents host cfg key s ev).getLast? (step host cfg s ev) := by
  obtain ⟨ht, hd⟩ := hp
  have hps := ev.env.purge_le_stamp
  have hclock : s.clock ≤ ev.env.stamp := UInt64.le_trans ht hps
  have hsame : Tracks cfg key past.getLast? ⟨s.leases, ev.env.stamp⟩ :=
    h.frame hclock fun _ _ => Iff.rfl
  have other {t : UInt8} (hm : IsMessage ev.datagram t) (hne : t ≠ DHCP_TYPE_RELEASE) :
      ¬ (IsMessage ev.datagram DHCP_TYPE_RELEASE ∧ ev.datagram.hwAddr = key) :=
    fun hc => hne (hm.unique hc.1)
  unfold leaseEvents step
  have hh := acted hd
  generalize handle host cfg s ev = o at hh ⊢
  cases hh with
  | discover hm =>
    rw [if_neg (other hm (by decide)), List.nil_append]
    exact tracks_discovery h ht
  | request hm =>
    rw [if_neg (other hm (by decide)), List.nil_append]
    exact tracks_request h ht
  | release hm =>
    simp only [Outcome.ret, List.filterMap_nil, List.append_nil]
    by_cases hk : ev.datagram.hwAddr = key
    · rw [if_pos ⟨hm, hk⟩, List.getLast?_append, List.getLast?_singleton, Option.some_or, hk]
      exact tracks_erase _ _
    · rw [if_neg fun hc => hk hc.2, List.append_nil]
      refine h.frame hclock fun lease _ => ?_
      rw [OrdMap.find?_erase, if_neg (Ne.symm hk)]
  | decline hm =>
    rw [if_neg (other hm (by decide)), List.nil_append]
    have hi := declined ev.datagram s.leases
    generalize handleDecline ev.datagram s.leases = o at hi ⊢
    cases hi with
    | failed _ _ => simpa [Outcome.throw] using hsame
    | banned _ =>
      simp only [Outcome.ret, List.filterMap_nil, List.append_nil]
      refine h.frame hclock fun lease _ => ?_
      rw [OrdMap.find?_insert_of_ne _ _ hz]
  | quiet hn hl hq =>
    -- the packet leaves the table alone, and its answer is neither an OFFER nor an ACK
    have hnone : o.enqueued.filterMap (fun e => replyEvent key ev.env.stamp e.2) = [] := by
      refine List.filterMap_eq_nil_iff.mpr fun e he => ?_
      obtain ⟨h2, h5⟩ := hq hopt e he
      simp only [replyEvent, if_neg h2, if_neg h5, ite_self]
    have hn7 : ¬ IsMessage ev.datagram DHCP_TYPE_RELEASE := hn _ (by simp [leaseTypes])
    rw [if_neg fun hc => hn7 hc.1, hnone, hl, List.append_nil, List.append_nil]
    exact hsame

/-! ### Runs -/

/-- **The table follows the messages** in every run. -/
theorem tracks_run (hopt : DHCP_MESSAGE_TYPE ∉ cfg.definedOptions) (hz : key ≠ HwAddr.zero)
    {es : List Event} (h : Meets (step host cfg) (Proper host cfg) init es) :
    Tracks cfg key (history host cfg key es).getLast? (run (step host cfg) init es) := by
  refine invariant_outs (leaseEvents host cfg key)
    (I := fun past s => Tracks cfg key past.flatten.getLast? s) (fun past s ev hI hp => ?_)
    (tracks_init key) h
  rw [List.flatten_append, List.flatten_singleton]
  exact tracks_step hopt hz hI hp

/-- The reply to a REQUEST for an address: an ACK if the address is in the subnet and the
client has a live lease for it, else a NAK. -/
lemma request_reply (host : ByteOrder) (cfg : SubnetConfiguration) (env : Env)
    (leases : LeaseTable) {address : UInt32} (hr : requestedAddress d = .ok address) :
    ((inSubnet host cfg address = true ∧ ∃ lease,
        (updateLeases env.purge leases).find? d.hwAddr = some lease ∧ lease.addr = address) ∧
      ∃ dest, (handleRequest host cfg env d leases).enqueued = [(dest, ack cfg d address)]) ∨
    (¬ (inSubnet host cfg address = true ∧ ∃ lease,
        (updateLeases env.purge leases).find? d.hwAddr = some lease ∧ lease.addr = address) ∧
      ∃ dest, (handleRequest host cfg env d leases).enqueued = [(dest, nak d)]) := by
  have h := requested host cfg env d leases
  generalize handleRequest host cfg env d leases = o at h ⊢
  cases h with
  | malformed hr' =>
    rw [hr] at hr'
    cases hr'
  | foreign hr' hs dest =>
    obtain rfl := Except.ok.inj (hr.symm.trans hr')
    exact Or.inr ⟨fun hc => by simp [hs] at hc, dest, rfl⟩
  | refused hr' hs hl dest =>
    obtain rfl := Except.ok.inj (hr.symm.trans hr')
    exact Or.inr ⟨fun ⟨_, lease, hf, hla⟩ => hl lease hf hla, dest, rfl⟩
  | granted hr' hs hl hla dest =>
    obtain rfl := Except.ok.inj (hr.symm.trans hr')
    exact Or.inl ⟨⟨hs, _, hl, hla⟩, dest, rfl⟩

/-- **History decides a REQUEST.** In every execution from the empty table, a REQUEST for an
address is answered by an ACK exactly if the address is in the subnet and the last lease event
of the client is an OFFER or an ACK of it that is still good; otherwise by one NAK. -/
theorem request_answered_by_history (host : ByteOrder) (cfg : SubnetConfiguration)
    (hcfg : Config.Served host cfg) (es : List Event) (ev : Event) (address : UInt32)
    (hrun : Meets (step host cfg) (Proper host cfg) init (es ++ [ev]))
    (hz : ev.datagram.hwAddr ≠ HwAddr.zero) (hm : IsMessage ev.datagram DHCP_TYPE_REQUEST)
    (ha : requestedAddress ev.datagram = .ok address) :
    ((∃ e ∈ (handle host cfg (run (step host cfg) init es) ev).enqueued,
        HasType e.2 DHCP_TYPE_ACK ∧ e.2.assignedIp = address) ↔
      inSubnet host cfg address = true ∧
        Holds cfg (history host cfg ev.datagram.hwAddr es).getLast? address ev.env.purge) ∧
    (¬ (inSubnet host cfg address = true ∧
        Holds cfg (history host cfg ev.datagram.hwAddr es).getLast? address ev.env.purge) →
      ∃ dest reply, (handle host cfg (run (step host cfg) init es) ev).enqueued = [(dest, reply)] ∧
        HasType reply DHCP_TYPE_NAK ∧ reply.assignedIp = 0) := by
  obtain ⟨hpast, ⟨ht, hdef⟩, -⟩ := meets_append.mp hrun
  have htracks := tracks_run hcfg.messageType_notMem hz hpast
  generalize run (step host cfg) init es = s at ht hdef htracks ⊢
  generalize (history host cfg ev.datagram.hwAddr es).getLast? = last at htracks ⊢
  have hhandle : handle host cfg s ev = handleRequest host cfg ev.env ev.datagram s.leases := by
    rw [handle_of_message hdef hm, if_neg (by decide), if_pos rfl]
  -- the handler looks for a live lease; by the invariant the history says the same
  have hreply := request_reply host cfg ev.env s.leases ha
  rw [htracks.holds_iff ht] at hreply
  rw [hhandle]
  rcases hreply with ⟨hh, dest, hq⟩ | ⟨hh, dest, hq⟩
  · rw [hq]
    refine ⟨iff_of_true ⟨_, List.mem_singleton.mpr rfl, hasType_ack address, rfl⟩ hh, ?_⟩
    exact fun hn => absurd hh hn
  · rw [hq]
    refine ⟨iff_of_false ?_ hh, fun _ => ⟨dest, nak ev.datagram, rfl, hasType_nak, rfl⟩⟩
    rintro ⟨e, he, hack, -⟩
    rw [List.mem_singleton.mp he] at hack
    exact absurd hack (hasType_nak.not_of_ne (by decide))

/-- A client that is offered 127.0.10.10 and asks for it five seconds later. -/
def dora : Event × Event :=
  (⟨at100, message DHCP_TYPE_DISCOVER (client 1) none⟩,
    ⟨still 105 (by decide), message DHCP_TYPE_REQUEST (client 1) (some 0x7f000a0a)⟩)

theorem request_answered_by_history_dora :
    (∃ e ∈ (handle .little Config.exampleConfig
        (run (step .little Config.exampleConfig) init [dora.1]) dora.2).enqueued,
      HasType e.2 DHCP_TYPE_ACK ∧ e.2.assignedIp = 0x7f000a0a) ↔
    inSubnet .little Config.exampleConfig 0x7f000a0a = true ∧
      Holds Config.exampleConfig
        (history .little Config.exampleConfig dora.2.datagram.hwAddr [dora.1]).getLast?
        0x7f000a0a dora.2.env.purge :=
  (request_answered_by_history .little Config.exampleConfig (Or.inr Config.accepted_exampleConfig)
    [dora.1] dora.2 0x7f000a0a (by decide +kernel) (by decide) (by decide +kernel)
    (by decide +kernel)).1

end TinyDhcpd.History
