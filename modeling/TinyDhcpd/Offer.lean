import TinyDhcpd.Handlers

/-!
Which addresses are offered.

A client may be offered an address of the range, or the one that is reserved for its MAC
address. Two of the sources of `handle_discovery` break this: a `ciaddr` is offered as it
comes, and the successor of the last of all addresses is 0.
-/

namespace TinyDhcpd.Offer

open Bytes OptionTag Daemon Run

variable {host : ByteOrder} {cfg : SubnetConfiguration} {env : Env} {d : DhcpDatagram}
  {leases : LeaseTable}

/-- An address of the range, or the one reserved for the MAC address. -/
def Legitimate (host : ByteOrder) (cfg : SubnetConfiguration) (mac : EtherAddr)
    (address : UInt32) : Prop :=
  ntohl host cfg.rangeStart ≤ address ∧ address ≤ ntohl host cfg.rangeEnd ∨
    (cfg.fixedHosts.lookup mac).map (ntohl host) = some address

instance (mac : EtherAddr) (address : UInt32) : Decidable (Legitimate host cfg mac address) :=
  inferInstanceAs (Decidable (_ ∨ _))

/-- The replies to a DISCOVER are for legitimate addresses. -/
def OffersLegitimate (host : ByteOrder) (cfg : SubnetConfiguration) (s : State) (ev : Event) :
    Prop :=
  IsMessage ev.datagram DHCP_TYPE_DISCOVER → ∀ e ∈ (handle host cfg s ev).enqueued,
    Legitimate host cfg (clientMac ev.datagram) e.2.assignedIp

/-- The condition on a DISCOVER, for the leases that survive the purge. A `ciaddr` that is
used is legitimate; and the range does not begin at the last address of all while the first
lease is for it. -/
structure SourceLegitimate (host : ByteOrder) (cfg : SubnetConfiguration) (d : DhcpDatagram)
    (live : LeaseTable) : Prop where
  ciaddr : keeps host cfg d live = none → d.clientIp ≠ INADDR_ANY →
    Legitimate host cfg (clientMac d) d.clientIp
  next : wish host cfg d live = INADDR_ANY → cfg.fixedHosts.lookup (clientMac d) = none →
    ∀ first, live.first? = some first → first.2.addr = ntohl host cfg.rangeStart →
    ntohl host cfg.rangeStart ≠ 0xffffffff

/-- The condition on a packet: a DISCOVER that is not turned away by an exception has a
legitimate source. -/
def LegitimateStep (host : ByteOrder) (cfg : SubnetConfiguration) (s : State) (ev : Event) :
    Prop :=
  IsMessage ev.datagram DHCP_TYPE_DISCOVER →
    Answerable ev.datagram (updateLeases ev.env.purge s.leases) →
    SourceLegitimate host cfg ev.datagram (updateLeases ev.env.purge s.leases)

lemma legitimate_of_keeps {mac : EtherAddr} {address : UInt32}
    (h : keeps host cfg d leases = some address) : Legitimate host cfg mac address := by
  obtain ⟨-, hr⟩ := Option.filter_eq_some_iff.mp h
  simp only [decide_eq_true_eq] at hr
  exact Or.inl ⟨hr.1, hr.2.1⟩

lemma sourceLegitimate_of_legitimate (hr : ntohl host cfg.rangeStart ≤ ntohl host cfg.rangeEnd)
    (h : ∀ offer, offerAddress host cfg (clientMac d) (wish host cfg d leases) leases = some offer →
      Legitimate host cfg (clientMac d) offer) : SourceLegitimate host cfg d leases where
  ciaddr hk hc := by
    have hw : wish host cfg d leases = d.clientIp := by simp [wish, hk]
    refine h _ (offerAddress_eq_some.mpr ?_)
    rw [hw]
    exact .wanted hc
  next hw hf _ he heq hmax := by
    have hlt : ntohl host cfg.rangeStart + 1 < ntohl host cfg.rangeEnd := by
      rw [hmax] at hr ⊢
      exact UInt32.lt_of_lt_of_le (by decide) hr
    -- the successor has wrapped around to 0, which is below the range
    rcases h _ (offerAddress_eq_some.mpr (.next hw hf he heq hlt)) with ⟨hl, -⟩ | hl
    · rw [hmax] at hl
      exact absurd hl (by decide)
    · simp [hf] at hl

lemma legitimate_of_source (hr : ntohl host cfg.rangeStart ≤ ntohl host cfg.rangeEnd)
    (hs : SourceLegitimate host cfg d leases) {offer : UInt32}
    (ho : offerAddress host cfg (clientMac d) (wish host cfg d leases) leases = some offer) :
    Legitimate host cfg (clientMac d) offer := by
  cases offerAddress_eq_some.mp ho with
  | wanted hw =>
    cases hk : keeps host cfg d leases with
    | some address =>
      have hc : wish host cfg d leases = address := by simp [wish, hk]
      exact hc ▸ legitimate_of_keeps hk
    | none =>
      have hc : wish host cfg d leases = d.clientIp := by simp [wish, hk]
      rw [hc] at hw ⊢
      exact hs.ciaddr hk hw
  | reserved hw hf => exact Or.inr (by rw [hf]; rfl)
  | unused hw hf he => exact Or.inl ⟨UInt32.le_refl _, hr⟩
  | start hw hf he hne hlt => exact Or.inl ⟨UInt32.le_refl _, hr⟩
  | next hw hf he heq hlt =>
    exact Or.inl ⟨le_add_one_iff.mpr (hs.next hw hf _ he heq), UInt32.le_of_lt hlt⟩

lemma discovery_legitimate_iff (hr : ntohl host cfg.rangeStart ≤ ntohl host cfg.rangeEnd)
    (hd : (handleDiscovery host cfg env d leases).Defined) :
    (∀ e ∈ (handleDiscovery host cfg env d leases).enqueued,
      Legitimate host cfg (clientMac d) e.2.assignedIp) ↔
      (Answerable d (updateLeases env.purge leases) →
        SourceLegitimate host cfg d (updateLeases env.purge leases)) := by
  have h := discovered host cfg env d leases
  generalize handleDiscovery host cfg env d leases = o at h hd ⊢
  cases h with
  | overflow hlen => exact absurd rfl (hd 6)
  | refused hlen ha => exact iff_of_true (by simp [Outcome.throw]) fun h => absurd h ha
  | exhausted hlen ha ho =>
    refine iff_of_true (by simp [Outcome.ret]) fun _ => ?_
    refine sourceLegitimate_of_legitimate hr fun offer hoffer => ?_
    rw [ho] at hoffer
    cases hoffer
  | offered hlen ha ho dest options =>
    simp only [List.mem_singleton, forall_eq, offerReply, forall_prop_of_true ha]
    refine ⟨fun hl => ?_, fun hs => legitimate_of_source hr hs ho⟩
    refine sourceLegitimate_of_legitimate hr fun offer hoffer => ?_
    rw [ho] at hoffer
    exact Option.some.inj hoffer ▸ hl

/-- **Only legitimate addresses are offered** along an execution exactly if each DISCOVER has
a legitimate source. -/
theorem offers_legitimate_iff (host : ByteOrder) (cfg : SubnetConfiguration)
    (hr : ntohl host cfg.rangeStart ≤ ntohl host cfg.rangeEnd) (es : List Event)
    (h : Meets (step host cfg) (Proper host cfg) init es) :
    Meets (step host cfg) (OffersLegitimate host cfg) init es ↔
      Meets (step host cfg) (LegitimateStep host cfg) init es := by
  refine meets_congr (fun s ev hp => ?_) h
  unfold OffersLegitimate LegitimateStep
  refine forall_congr' fun hm => ?_
  have hd : handle host cfg s ev = handleDiscovery host cfg ev.env ev.datagram s.leases := by
    rw [handle_of_message hp.2 hm, if_pos rfl]
  rw [hd]
  exact discovery_legitimate_iff hr (hd ▸ hp.2)

/-- A DISCOVER that asks for 8.8.8.8 and gives it as its `ciaddr`. -/
def strayDiscover : Event :=
  ⟨at100,
    { message DHCP_TYPE_DISCOVER (client 1) (some 0x08080808) with clientIp := 0x08080808 }⟩

theorem offers_legitimate_iff_stray :
    Meets (step .little Config.exampleConfig) (OffersLegitimate .little Config.exampleConfig) init
      [strayDiscover] ↔
    Meets (step .little Config.exampleConfig) (LegitimateStep .little Config.exampleConfig) init
      [strayDiscover] :=
  offers_legitimate_iff .little Config.exampleConfig (by decide +kernel) [strayDiscover]
    (by decide +kernel)

/-- The shipped configuration serves 127.0.10.10 to 127.0.10.190, and 8.8.8.8 is offered. -/
theorem stray_ciaddr_is_offered :
    Config.Accepted .little Config.exampleConfig ∧
      ntohl .little Config.exampleConfig.rangeStart ≤ ntohl .little Config.exampleConfig.rangeEnd ∧
      Meets (step .little Config.exampleConfig) (Proper .little Config.exampleConfig) init
        [strayDiscover] ∧
      IsMessage strayDiscover.datagram DHCP_TYPE_DISCOVER ∧
      ∃ e ∈ (handle .little Config.exampleConfig init strayDiscover).enqueued,
        HasType e.2 DHCP_TYPE_OFFER ∧
        ¬ Legitimate .little Config.exampleConfig (clientMac strayDiscover.datagram)
          e.2.assignedIp := by
  refine ⟨Config.accepted_exampleConfig, by decide +kernel, by decide +kernel,
    ⟨rfl, [], by decide +kernel⟩, by decide +kernel⟩

end TinyDhcpd.Offer
