import TinyDhcpd.Handlers

/-!
When the reserved addresses are kept for their owners.

A reservation is honoured for the client it is made for, and a client without one is served
from the range. The search through the range does not look at the reservations, so that a
reserved address that lies at the beginning of the range goes to the first client that comes.
The other way around the reservations is the all-zero key, under which a declined address is
found as if it were a lease.
-/

namespace TinyDhcpd.Reservation

open Bytes OptionTag Daemon Run

/-- The address is reserved for the MAC address. -/
def Reserved (host : ByteOrder) (cfg : SubnetConfiguration) (mac : EtherAddr)
    (address : UInt32) : Prop :=
  (cfg.fixedHosts.lookup mac).map (ntohl host) = some address

instance (host : ByteOrder) (cfg : SubnetConfiguration) (mac : EtherAddr) (address : UInt32) :
    Decidable (Reserved host cfg mac address) := inferInstanceAs (Decidable (_ = _))

/-- No address is reserved twice. -/
def Distinct (host : ByteOrder) (cfg : SubnetConfiguration) : Prop :=
  ∀ m m' address, Reserved host cfg m address → Reserved host cfg m' address → m = m'

/-- A client with this MAC address may have the address: it is reserved for nobody else, and
it is the one reserved for the client if there is one. -/
def Fitting (host : ByteOrder) (cfg : SubnetConfiguration) (mac : EtherAddr)
    (address : UInt32) : Prop :=
  (∀ m, Reserved host cfg m address → mac = m) ∧
    ∀ reserved, Reserved host cfg mac reserved → address = reserved

/-- The replies respect the reservations: a reserved address is offered and confirmed to its
owner only, and the owner of a reservation is offered nothing else. -/
def Respects (host : ByteOrder) (cfg : SubnetConfiguration)
    (replies : List (SockaddrIn × DhcpDatagram)) : Prop :=
  ∀ e ∈ replies,
    (HasType e.2 DHCP_TYPE_OFFER ∨ HasType e.2 DHCP_TYPE_ACK →
      ∀ m, Reserved host cfg m e.2.assignedIp → e.2.hwAddr.mac = m) ∧
    (HasType e.2 DHCP_TYPE_OFFER →
      ∀ reserved, Reserved host cfg e.2.hwAddr.mac reserved → e.2.assignedIp = reserved)

/-- The packets considered: a DISCOVER has no `ciaddr` and a hardware address of six bytes. -/
def PlainDiscover (ev : Event) : Prop :=
  IsMessage ev.datagram DHCP_TYPE_DISCOVER →
    ev.datagram.clientIp = INADDR_ANY ∧ ev.datagram.hwaddrLen = 6

instance (ev : Event) : Decidable (PlainDiscover ev) := inferInstanceAs (Decidable (_ → _))

/-- What the search through the range comes up with is reserved for nobody. -/
structure RangeUnreserved (host : ByteOrder) (cfg : SubnetConfiguration) (live : LeaseTable) :
    Prop where
  unused : live.first? = none → ∀ m, ¬ Reserved host cfg m (ntohl host cfg.rangeStart)
  start : ∀ first, live.first? = some first → first.2.addr ≠ ntohl host cfg.rangeStart →
    ntohl host cfg.rangeStart < ntohl host cfg.rangeEnd →
    ∀ m, ¬ Reserved host cfg m (ntohl host cfg.rangeStart)
  next : ∀ first, live.first? = some first → first.2.addr = ntohl host cfg.rangeStart →
    ntohl host cfg.rangeStart + 1 < ntohl host cfg.rangeEnd →
    ∀ m, ¬ Reserved host cfg m (ntohl host cfg.rangeStart + 1)

structure DiscoverFits (host : ByteOrder) (cfg : SubnetConfiguration) (d : DhcpDatagram)
    (live : LeaseTable) : Prop where
  range : wish host cfg d live = INADDR_ANY → cfg.fixedHosts.lookup d.hwAddr.mac = none →
    RangeUnreserved host cfg live
  zero : d.hwAddr = HwAddr.zero → wish host cfg d live ≠ INADDR_ANY →
    Fitting host cfg HwAddr.zero.mac (wish host cfg d live)

/-- The condition on a packet. A DISCOVER that needs an address from the range finds one that
is not reserved; and what the all-zero client asks for, which may be a declined address, is
not reserved for others. -/
def FittingStep (host : ByteOrder) (cfg : SubnetConfiguration) (s : State) (ev : Event) : Prop :=
  (IsMessage ev.datagram DHCP_TYPE_DISCOVER →
    Answerable ev.datagram (updateLeases ev.env.purge s.leases) →
    DiscoverFits host cfg ev.datagram (updateLeases ev.env.purge s.leases)) ∧
  (IsMessage ev.datagram DHCP_TYPE_REQUEST → ev.datagram.hwAddr = HwAddr.zero →
    ∀ address, requestedAddress ev.datagram = .ok address → inSubnet host cfg address = true →
    ∀ lease, (updateLeases ev.env.purge s.leases).find? HwAddr.zero = some lease →
    lease.addr = address → ∀ m, Reserved host cfg m address → HwAddr.zero.mac = m)

/-- The leases of clients fit them. The all-zero key is not a client. -/
def LeasesFit (host : ByteOrder) (cfg : SubnetConfiguration) (leases : LeaseTable) : Prop :=
  ∀ key lease, key ≠ HwAddr.zero → leases.find? key = some lease →
    Fitting host cfg key.mac lease.addr

variable {host : ByteOrder} {cfg : SubnetConfiguration} {env : Env} {d : DhcpDatagram}
  {leases : LeaseTable}

lemma fitting_reserved (hdist : Distinct host cfg) {mac : EtherAddr} {reserved : UInt32}
    (hf : cfg.fixedHosts.lookup mac = some reserved) :
    Fitting host cfg mac (ntohl host reserved) := by
  have hr : Reserved host cfg mac (ntohl host reserved) := by rw [Reserved, hf]; rfl
  refine ⟨fun m hm => hdist mac m _ hr hm, fun r hm => ?_⟩
  rw [Reserved, hf] at hm
  exact Option.some.inj hm

lemma fitting_iff_unreserved {mac : EtherAddr} (hf : cfg.fixedHosts.lookup mac = none)
    {address : UInt32} :
    Fitting host cfg mac address ↔ ∀ m, ¬ Reserved host cfg m address := by
  have hnone : ∀ r, ¬ Reserved host cfg mac r := fun r hr => by simp [Reserved, hf] at hr
  constructor
  · intro h m hm
    exact hnone address (h.1 m hm ▸ hm)
  · exact fun h => ⟨fun m hm => absurd hm (h m), fun r hr => absurd hr (hnone r)⟩

lemma LeasesFit.sub {fewer : LeaseTable} (h : LeasesFit host cfg leases)
    (hs : ∀ k l, fewer.find? k = some l → leases.find? k = some l) : LeasesFit host cfg fewer :=
  fun key lease hz hl => h key lease hz (hs key lease hl)

lemma LeasesFit.updateLeases (h : LeasesFit host cfg leases) (purge : UInt64) :
    LeasesFit host cfg (updateLeases purge leases) :=
  h.sub fun _ _ hl => (find?_updateLeases_eq_some.mp hl).1

lemma LeasesFit.insert (h : LeasesFit host cfg leases) {key : HwAddr} {lease : Lease}
    (hf : key ≠ HwAddr.zero → Fitting host cfg key.mac lease.addr) :
    LeasesFit host cfg (leases.insert key lease) := by
  intro k l hz hl
  rw [OrdMap.find?_insert] at hl
  split_ifs at hl with hk
  · obtain rfl := Option.some.inj hl
    exact hk ▸ hf (hk ▸ hz)
  · exact h k l hz hl

lemma fitting_wish (hc : d.clientIp = INADDR_ANY) (hfit : LeasesFit host cfg leases)
    (hz : d.hwAddr ≠ HwAddr.zero) (hw : wish host cfg d leases ≠ INADDR_ANY) :
    Fitting host cfg d.hwAddr.mac (wish host cfg d leases) := by
  cases hk : keeps host cfg d leases with
  | none => exact absurd (by simp [wish, hk, hc]) hw
  | some address =>
    obtain ⟨lease, hl, rfl⟩ := lease_of_keeps hk
    have hwish : wish host cfg d leases = lease.addr := by simp [wish, hk]
    exact hwish ▸ hfit d.hwAddr lease hz hl

lemma discoverFits_of_fitting
    (h : ∀ offer, offerAddress host cfg d.hwAddr.mac (wish host cfg d leases) leases = some offer →
      Fitting host cfg d.hwAddr.mac offer) : DiscoverFits host cfg d leases where
  range hw hf := by
    have unreserved {offer : UInt32}
        (hs : Source host cfg d.hwAddr.mac (wish host cfg d leases) leases offer) :
        ∀ m, ¬ Reserved host cfg m offer :=
      (fitting_iff_unreserved hf).mp (h offer (offerAddress_eq_some.mpr hs))
    exact ⟨fun he => unreserved (.unused hw hf he),
      fun _ he hne hlt => unreserved (.start hw hf he hne hlt),
      fun _ he heq hlt => unreserved (.next hw hf he heq hlt)⟩
  zero hz hw := hz ▸ h _ (offerAddress_eq_some.mpr (.wanted hw))

lemma fitting_of_discoverFits (hdist : Distinct host cfg) (hc : d.clientIp = INADDR_ANY)
    (hfit : LeasesFit host cfg leases) (hd : DiscoverFits host cfg d leases) {offer : UInt32}
    (ho : offerAddress host cfg d.hwAddr.mac (wish host cfg d leases) leases = some offer) :
    Fitting host cfg d.hwAddr.mac offer := by
  cases offerAddress_eq_some.mp ho with
  | wanted hw =>
    by_cases hz : d.hwAddr = HwAddr.zero
    · rw [hz]
      exact hd.zero hz hw
    · exact fitting_wish hc hfit hz hw
  | reserved hw hf => exact fitting_reserved hdist hf
  | unused hw hf he => exact (fitting_iff_unreserved hf).mpr ((hd.range hw hf).unused he)
  | start hw hf he hne hlt =>
    exact (fitting_iff_unreserved hf).mpr ((hd.range hw hf).start _ he hne hlt)
  | next hw hf he heq hlt =>
    exact (fitting_iff_unreserved hf).mpr ((hd.range hw hf).next _ he heq hlt)

/-! ### One packet -/

lemma discovery_fits_iff (hdist : Distinct host cfg) (hc : d.clientIp = INADDR_ANY)
    (hlen : d.hwaddrLen = 6) (hfit : LeasesFit host cfg leases)
    (hd : (handleDiscovery host cfg env d leases).Defined) :
    (Respects host cfg (handleDiscovery host cfg env d leases).enqueued ↔
      (Answerable d (updateLeases env.purge leases) →
        DiscoverFits host cfg d (updateLeases env.purge leases))) ∧
    ((Answerable d (updateLeases env.purge leases) →
        DiscoverFits host cfg d (updateLeases env.purge leases)) →
      LeasesFit host cfg (handleDiscovery host cfg env d leases).leases) := by
  have hlive := hfit.updateLeases env.purge
  have h := discovered host cfg env d leases
  generalize handleDiscovery host cfg env d leases = o at h hd ⊢
  cases h with
  | overflow hlen => exact absurd rfl (hd 6)
  | refused _ ha =>
    exact ⟨iff_of_true (by simp [Respects, Outcome.throw]) fun hc => absurd hc ha,
      fun _ => hlive⟩
  | exhausted _ ha ho =>
    -- nothing is offered, so no source has anything to fit
    rw [clientMac_of_six hlen] at ho
    refine ⟨iff_of_true (by simp [Respects, Outcome.ret]) fun _ => ?_, fun _ => hlive⟩
    refine discoverFits_of_fitting fun offer hoffer => ?_
    rw [ho] at hoffer
    cases hoffer
  | offered _ ha ho dest options =>
    rename_i offer
    rw [clientMac_of_six hlen] at ho
    have hty : HasType (offerReply cfg d options offer) DHCP_TYPE_OFFER := hasType_offerReply _ _
    have hresp : Respects host cfg [(dest, offerReply cfg d options offer)] ↔
        Fitting host cfg d.hwAddr.mac offer := by
      simp only [Respects, List.mem_singleton, forall_eq, hty, true_or, forall_prop_of_true]
      rfl
    have hfits : Fitting host cfg d.hwAddr.mac offer ↔
        DiscoverFits host cfg d (updateLeases env.purge leases) := by
      refine ⟨fun hf => discoverFits_of_fitting fun offer' ho' => ?_,
        fun hdf => fitting_of_discoverFits hdist hc hlive hdf ho⟩
      rw [ho] at ho'
      exact Option.some.inj ho' ▸ hf
    rw [hresp, hfits]
    refine ⟨⟨fun hdf _ => hdf, fun hdf => hdf ha⟩, fun hdf => ?_⟩
    exact hlive.insert fun _ => hfits.mpr (hdf ha)

lemma respects_of_other {replies : List (SockaddrIn × DhcpDatagram)}
    (h : ∀ e ∈ replies, ¬ HasType e.2 DHCP_TYPE_OFFER ∧ ¬ HasType e.2 DHCP_TYPE_ACK) :
    Respects host cfg replies := by
  intro e he
  obtain ⟨h2, h5⟩ := h e he
  exact ⟨fun hty => absurd hty (not_or.mpr ⟨h2, h5⟩), fun hty => absurd hty h2⟩

lemma respects_nak (dest : SockaddrIn) : Respects host cfg [(dest, nak d)] := by
  refine respects_of_other fun e he => ?_
  rw [List.mem_singleton.mp he]
  exact ⟨hasType_nak.not_of_ne (by decide), hasType_nak.not_of_ne (by decide)⟩

lemma respects_ack_iff (dest : SockaddrIn) (address : UInt32) :
    Respects host cfg [(dest, ack cfg d address)] ↔
      ∀ m, Reserved host cfg m address → d.hwAddr.mac = m := by
  have hty : HasType (ack cfg d address) DHCP_TYPE_ACK := hasType_ack address
  have hno : ¬ HasType (ack cfg d address) DHCP_TYPE_OFFER :=
    hty.not_of_ne (by decide)
  simp only [Respects, List.mem_singleton, forall_eq, hty, hno, or_true, forall_prop_of_true,
    false_imp_iff, and_true]
  rfl

/-- A REQUEST respects the reservations unless the all-zero client asks for a declined address
that is reserved; the leases go on fitting in any case. -/
lemma request_fits_iff (env : Env) (d : DhcpDatagram) (hfit : LeasesFit host cfg leases) :
    (Respects host cfg (handleRequest host cfg env d leases).enqueued ↔
      (d.hwAddr = HwAddr.zero → ∀ address, requestedAddress d = .ok address →
        inSubnet host cfg address = true →
        ∀ lease, (updateLeases env.purge leases).find? HwAddr.zero = some lease →
        lease.addr = address → ∀ m, Reserved host cfg m address → HwAddr.zero.mac = m)) ∧
    LeasesFit host cfg (handleRequest host cfg env d leases).leases := by
  have hlive := hfit.updateLeases env.purge
  have h := requested host cfg env d leases
  generalize handleRequest host cfg env d leases = o at h ⊢
  cases h with
  | malformed hr =>
    refine ⟨iff_of_true (by simp [Respects, Outcome.throw]) fun _ a ha => ?_, hfit⟩
    rw [hr] at ha
    cases ha
  | foreign hr hs dest =>
    refine ⟨iff_of_true (respects_nak dest) fun _ a ha hin => ?_, hfit⟩
    obtain rfl := Except.ok.inj (hr.symm.trans ha)
    rw [hin] at hs
    cases hs
  | refused hr hs hl dest =>
    refine ⟨iff_of_true (respects_nak dest) fun hz a ha _ lease hlease hla => ?_, hlive⟩
    obtain rfl := Except.ok.inj (hr.symm.trans ha)
    exact absurd hla (hl lease (hz ▸ hlease))
  | granted hr hs hl hla dest =>
    subst hla
    rename_i lease
    have hown (hz : d.hwAddr ≠ HwAddr.zero) : Fitting host cfg d.hwAddr.mac lease.addr :=
      hlive d.hwAddr lease hz hl
    rw [respects_ack_iff]
    refine ⟨?_, hlive.insert hown⟩
    -- only the key of zeros can hold an address that does not fit it
    by_cases hz : d.hwAddr = HwAddr.zero
    · rw [hz] at hl ⊢
      refine ⟨fun hm _ a ha _ lease hlease hla => ?_, fun h => h rfl _ hr hs _ hl rfl⟩
      obtain rfl := Except.ok.inj (hr.symm.trans ha)
      exact hm
    · exact iff_of_true (hown hz).1 fun hc => absurd hc hz

lemma fittingStep_of_message {s : State} {ev : Event} {t : UInt8} (hm : IsMessage ev.datagram t)
    (h1 : t ≠ DHCP_TYPE_DISCOVER) (h3 : t ≠ DHCP_TYPE_REQUEST) : FittingStep host cfg s ev :=
  ⟨fun hc => absurd hc (hm.not_of_ne h1), fun hc => absurd hc (hm.not_of_ne h3)⟩

/-- **One packet.** While the leases fit, a step respects the reservations exactly if it meets
the condition, and then the leases go on fitting. -/
theorem fitting_step_iff (hopt : DHCP_MESSAGE_TYPE ∉ cfg.definedOptions)
    (hdist : Distinct host cfg) {s : State} {ev : Event} (hfit : LeasesFit host cfg s.leases)
    (hp : Proper host cfg s ev) (hplain : PlainDiscover ev) :
    (Respects host cfg (handle host cfg s ev).enqueued ↔ FittingStep host cfg s ev) ∧
      (FittingStep host cfg s ev → LeasesFit host cfg (step host cfg s ev).leases) := by
  show (_ ↔ _) ∧ (_ → LeasesFit host cfg (handle host cfg s ev).leases)
  have hd := hp.2
  have h := acted hd
  generalize handle host cfg s ev = o at h hd ⊢
  cases h with
  | discover hm =>
    obtain ⟨hc, hlen⟩ := hplain hm
    have hiff := discovery_fits_iff hdist hc hlen hfit hd
    simpa [FittingStep, hm.iff, DHCP_TYPE_DISCOVER, DHCP_TYPE_REQUEST] using hiff
  | request hm =>
    obtain ⟨hiff, hleases⟩ := request_fits_iff ev.env ev.datagram hfit
    refine ⟨?_, fun _ => hleases⟩
    rw [hiff]
    simp [FittingStep, hm.iff, DHCP_TYPE_DISCOVER, DHCP_TYPE_REQUEST]
  | release hm =>
    refine ⟨iff_of_true (by simp [Respects, Outcome.ret])
      (fittingStep_of_message hm (by decide) (by decide)), fun _ => hfit.sub fun k l hl => ?_⟩
    exact OrdMap.find?_of_erase hl
  | decline hm =>
    have hi := declined ev.datagram s.leases
    generalize handleDecline ev.datagram s.leases = o at hi ⊢
    have hstep : FittingStep host cfg s ev := fittingStep_of_message hm (by decide) (by decide)
    cases hi with
    | failed _ _ => exact ⟨iff_of_true (by simp [Respects, Outcome.throw]) hstep, fun _ => hfit⟩
    | banned _ =>
      exact ⟨iff_of_true (by simp [Respects, Outcome.ret]) hstep,
        fun _ => hfit.insert fun hz => absurd rfl hz⟩
  | quiet hn hl hq =>
    have hn1 : ¬ IsMessage ev.datagram DHCP_TYPE_DISCOVER := hn _ (by simp [leaseTypes])
    have hn3 : ¬ IsMessage ev.datagram DHCP_TYPE_REQUEST := hn _ (by simp [leaseTypes])
    rw [hl]
    exact ⟨iff_of_true (respects_of_other (hq hopt))
      ⟨fun hm => absurd hm hn1, fun hm => absurd hm hn3⟩, fun _ => hfit⟩

/-! ### Runs -/

/-- **Reservations are exclusive** along an execution with plain DISCOVERs exactly if each
packet meets the condition. -/
theorem reservations_exclusive_iff (host : ByteOrder) (cfg : SubnetConfiguration)
    (hcfg : Config.Served host cfg) (hdist : Distinct host cfg) (es : List Event)
    (h : Meets (step host cfg) (Proper host cfg) init es) (hplain : ∀ ev ∈ es, PlainDiscover ev) :
    Meets (step host cfg) (fun s ev => Respects host cfg (handle host cfg s ev).enqueued) init es ↔
      Meets (step host cfg) (FittingStep host cfg) init es := by
  have hopt := hcfg.messageType_notMem
  have hinit : LeasesFit host cfg init.leases := fun k l _ hl => by simp [init] at hl
  have hboth := meets_and.mpr ⟨h, meets_of_forall hplain⟩
  exact meets_iff_of_invariant (I := fun s => LeasesFit host cfg s.leases)
    (fun _ _ hI hok => (fitting_step_iff hopt hdist hI hok.1 hok.2).1)
    (fun _ _ hI hok => (fitting_step_iff hopt hdist hI hok.1 hok.2).2) hinit hboth

def newcomer : Event := ⟨at100, message DHCP_TYPE_DISCOVER (client 1) none⟩

lemma distinct_exampleConfig : Distinct .little Config.exampleConfig := by
  have hall : ∀ m address, Reserved .little Config.exampleConfig m address →
      m = Config.exampleOwner ∧ address = 0x7f000a0a ∨
        m = Config.exampleOwner' ∧ address = 0x7f000a14 := by
    intro m address h
    unfold Reserved Config.exampleConfig at h
    by_cases h2 : m = Config.exampleOwner'
    · refine Or.inr ⟨h2, ?_⟩
      rw [h2, Finmap.lookup_insert] at h
      exact (Option.some.inj h).symm.trans (by decide)
    rw [Finmap.lookup_insert_of_ne _ h2] at h
    by_cases h1 : m = Config.exampleOwner
    · refine Or.inl ⟨h1, ?_⟩
      rw [h1, Finmap.lookup_insert] at h
      exact (Option.some.inj h).symm.trans (by decide)
    · rw [Finmap.lookup_insert_of_ne _ h1, Finmap.lookup_empty] at h
      cases h
  intro m m' address h h'
  rcases hall m address h with ⟨rfl, rfl⟩ | ⟨rfl, rfl⟩
  · rcases hall m' _ h' with ⟨rfl, -⟩ | ⟨-, hc⟩
    · rfl
    · exact absurd hc (by decide)
  · rcases hall m' _ h' with ⟨-, hc⟩ | ⟨rfl, -⟩
    · exact absurd hc (by decide)
    · rfl

theorem reservations_exclusive_iff_newcomer :
    Meets (step .little Config.exampleConfig)
      (fun s ev => Respects .little Config.exampleConfig
        (handle .little Config.exampleConfig s ev).enqueued) init [newcomer] ↔
    Meets (step .little Config.exampleConfig) (FittingStep .little Config.exampleConfig) init
      [newcomer] :=
  reservations_exclusive_iff .little Config.exampleConfig (Or.inr Config.accepted_exampleConfig)
    distinct_exampleConfig [newcomer] (by decide +kernel) (by decide +kernel)

/-- The first reserved address of the shipped configuration is the first of the range, and is
offered to the first client that comes. -/
theorem newcomer_takes_reserved :
    Config.Accepted .little Config.exampleConfig ∧ Distinct .little Config.exampleConfig ∧
      Meets (step .little Config.exampleConfig) (Proper .little Config.exampleConfig) init
        [newcomer] ∧
      PlainDiscover newcomer ∧
      ¬ Respects .little Config.exampleConfig
        (handle .little Config.exampleConfig init newcomer).enqueued := by
  refine ⟨Config.accepted_exampleConfig, distinct_exampleConfig, by decide +kernel,
    by decide +kernel, fun h => ?_⟩
  have hoffer : ∃ e ∈ (handle .little Config.exampleConfig init newcomer).enqueued,
      HasType e.2 DHCP_TYPE_OFFER ∧
        Reserved .little Config.exampleConfig Config.exampleOwner e.2.assignedIp ∧
        e.2.hwAddr.mac ≠ Config.exampleOwner := by decide +kernel
  obtain ⟨e, he, hty, hres, hne⟩ := hoffer
  exact hne ((h e he).1 (Or.inl hty) Config.exampleOwner hres)

end TinyDhcpd.Reservation
