import TinyDhcpd.Handlers

/-!
How long a declined address stays out of circulation.

A DECLINE puts the address under the all-zero key, with an expiry that is never reached. The
key is the least one, so the search through the range sees this entry first and does not come
up with the address while it is there. But there is room for one declined address only, the
key is also the one of a client with an all-zero hardware address, and the other sources of
`handle_discovery` and the renewal of a lease do not look at the entry.
-/

namespace TinyDhcpd.Decline

open Bytes OptionTag Daemon Run

/-- The address is entered as declined. -/
def Banned (address : UInt32) (leases : LeaseTable) : Prop :=
  leases.find? HwAddr.zero = some ⟨address, UINT64_MAX⟩

/-- The step offers the address to nobody and confirms it to nobody. -/
def NotGranted (host : ByteOrder) (cfg : SubnetConfiguration) (address : UInt32) (s : State)
    (ev : Event) : Prop :=
  ∀ e ∈ (handle host cfg s ev).enqueued,
    HasType e.2 DHCP_TYPE_OFFER ∨ HasType e.2 DHCP_TYPE_ACK → e.2.assignedIp ≠ address

/-- The range has nothing to offer while the declined address is the only one it is compared
with. -/
def Exhausted (host : ByteOrder) (cfg : SubnetConfiguration) (address : UInt32) : Prop :=
  ¬ (if address = ntohl host cfg.rangeStart then ntohl host cfg.rangeStart + 1
    else ntohl host cfg.rangeStart) < ntohl host cfg.rangeEnd

/-- The sources that do not look at the declined address: the address the client is known to
want and the reserved one are others. A DISCOVER of the all-zero client, which would replace
the entry, is for an address of the range while there is none. -/
def DiscoverSpares (host : ByteOrder) (cfg : SubnetConfiguration) (address : UInt32)
    (d : DhcpDatagram) (live : LeaseTable) : Prop :=
  Answerable d live →
    (wish host cfg d live ≠ INADDR_ANY → wish host cfg d live ≠ address) ∧
    (wish host cfg d live = INADDR_ANY →
      (cfg.fixedHosts.lookup (clientMac d)).map (ntohl host) ≠ some address) ∧
    (d.hwAddr = HwAddr.zero → wish host cfg d live = INADDR_ANY ∧
      cfg.fixedHosts.lookup (clientMac d) = none ∧ Exhausted host cfg address)

instance (host : ByteOrder) (cfg : SubnetConfiguration) (address : UInt32) :
    Decidable (Exhausted host cfg address) := inferInstanceAs (Decidable (¬ _))

instance (host : ByteOrder) (cfg : SubnetConfiguration) (address : UInt32) (d : DhcpDatagram)
    (live : LeaseTable) : Decidable (DiscoverSpares host cfg address d live) :=
  inferInstanceAs (Decidable (_ → _))

/-- The condition on a packet: a DISCOVER spares the declined address, a REQUEST is not for
the address by a client that has it as its lease, the all-zero client does not release, and no
other address is declined. -/
def Spares (host : ByteOrder) (cfg : SubnetConfiguration) (address : UInt32) (s : State)
    (ev : Event) : Prop :=
  (IsMessage ev.datagram DHCP_TYPE_DISCOVER →
    DiscoverSpares host cfg address ev.datagram (updateLeases ev.env.purge s.leases)) ∧
  (IsMessage ev.datagram DHCP_TYPE_REQUEST → requestedAddress ev.datagram = .ok address →
    inSubnet host cfg address = true →
    ((updateLeases ev.env.purge s.leases).find? ev.datagram.hwAddr).map Lease.addr ≠
      some address) ∧
  (IsMessage ev.datagram DHCP_TYPE_RELEASE → ev.datagram.hwAddr ≠ HwAddr.zero) ∧
  (IsMessage ev.datagram DHCP_TYPE_DECLINE →
    requestedIp ev.datagram = none ∨ requestedIp ev.datagram = some address)

instance (host : ByteOrder) (cfg : SubnetConfiguration) (address : UInt32) (s : State)
    (ev : Event) : Decidable (Spares host cfg address s ev) :=
  inferInstanceAs (Decidable (_ ∧ _))

variable {host : ByteOrder} {cfg : SubnetConfiguration} {env : Env} {d : DhcpDatagram}
  {leases : LeaseTable} {address : UInt32}

lemma stamp_lt_max (env : Env) : env.stamp < UINT64_MAX := by
  have h := env.stamp_lt
  rw [UInt64.lt_iff_toNat_lt, show UINT64_MAX.toNat = 2 ^ 64 - 1 from rfl]
  omega

lemma stamp_add_ne_max (env : Env) : env.stamp + 10 ≠ UINT64_MAX := by
  intro hc
  have h := env.stamp_lt
  have hn := congrArg UInt64.toNat hc
  rw [env.toNat_stamp_add (by decide), show UINT64_MAX.toNat = 2 ^ 64 - 1 from rfl] at hn
  simp only [UInt64.reduceToNat] at hn
  omega

lemma Banned.updateLeases (h : Banned address leases) (env : Env) :
    Banned address (updateLeases env.purge leases) := by
  have hlt : env.purge < UINT64_MAX := UInt64.lt_of_le_of_lt env.purge_le_stamp (stamp_lt_max env)
  exact find?_updateLeases_eq_some.mpr ⟨h, hlt⟩

lemma Banned.first? (h : Banned address leases) :
    leases.first? = some (HwAddr.zero, ⟨address, UINT64_MAX⟩) :=
  OrdMap.first?_of_least h HwAddr.zero_le

lemma offer_ne_iff (hb : Banned address leases) {offer : UInt32}
    (ho : offerAddress host cfg (clientMac d) (wish host cfg d leases) leases = some offer) :
    offer ≠ address ↔
      (wish host cfg d leases ≠ INADDR_ANY → wish host cfg d leases ≠ address) ∧
      (wish host cfg d leases = INADDR_ANY →
        (cfg.fixedHosts.lookup (clientMac d)).map (ntohl host) ≠ some address) := by
  have unreserved (hf : cfg.fixedHosts.lookup (clientMac d) = none) :
      (cfg.fixedHosts.lookup (clientMac d)).map (ntohl host) ≠ some address := by
    rw [hf]
    simp
  cases offerAddress_eq_some.mp ho with
  | wanted hw =>
    exact ⟨fun h => ⟨fun _ => h, fun hc => absurd hc hw⟩, fun h => h.1 hw⟩
  | reserved hw hf =>
    simp only [hf, Option.map_some, ne_eq, Option.some.injEq]
    exact ⟨fun h => ⟨fun hc => absurd hw hc, fun _ => h⟩, fun h => h.2 hw⟩
  | unused hw hf he =>
    -- there is a lease, that of the declined address
    rw [hb.first?] at he
    cases he
  | start hw hf he hne hlt =>
    rw [hb.first?] at he
    cases he
    exact iff_of_true (Ne.symm hne) ⟨fun hc => absurd hw hc, fun _ => unreserved hf⟩
  | next hw hf he heq hlt =>
    rw [hb.first?] at he
    cases he
    simp only at heq
    refine iff_of_true ?_ ⟨fun hc => absurd hw hc, fun _ => unreserved hf⟩
    rw [heq]
    simp

lemma offerAddress_eq_none (hb : Banned address leases) :
    offerAddress host cfg (clientMac d) (wish host cfg d leases) leases = none ↔
      wish host cfg d leases = INADDR_ANY ∧ cfg.fixedHosts.lookup (clientMac d) = none ∧
        Exhausted host cfg address := by
  unfold offerAddress Exhausted
  by_cases hw : wish host cfg d leases = INADDR_ANY
  · cases hf : cfg.fixedHosts.lookup (clientMac d) with
    | some reserved => simp [hw]
    | none =>
      simp only [hw, if_true, searchRange_entries, hb.first?, true_and]
      split_ifs <;> simp_all
  · simp [hw]

lemma discovery_spares_iff (hb : Banned address leases)
    (hd : (handleDiscovery host cfg env d leases).Defined) :
    ((∀ e ∈ (handleDiscovery host cfg env d leases).enqueued,
        HasType e.2 DHCP_TYPE_OFFER ∨ HasType e.2 DHCP_TYPE_ACK → e.2.assignedIp ≠ address) ∧
      Banned address (handleDiscovery host cfg env d leases).leases) ↔
      DiscoverSpares host cfg address d (updateLeases env.purge leases) := by
  have hlive := hb.updateLeases env
  have h := discovered host cfg env d leases
  generalize handleDiscovery host cfg env d leases = o at h hd ⊢
  cases h with
  | overflow hlen => exact absurd rfl (hd 6)
  | refused hlen ha =>
    exact iff_of_true ⟨by simp [Outcome.throw], hlive⟩ fun hc => absurd hc ha
  | exhausted hlen ha ho =>
    obtain ⟨hw, hf, he⟩ := (offerAddress_eq_none hlive).mp ho
    refine iff_of_true ⟨by simp [Outcome.ret], hlive⟩ fun _ => ⟨fun hc => absurd hw hc,
      fun _ => ?_, fun _ => ⟨hw, hf, he⟩⟩
    rw [hf]
    simp
  | offered hlen ha ho dest options =>
    rename_i offer
    have hty : HasType (offerReply cfg d options offer) DHCP_TYPE_OFFER := hasType_offerReply _ _
    -- only the client with the key of zeros can overwrite the entry
    have hban : Banned address ((updateLeases env.purge leases).insert d.hwAddr
        ⟨offer, env.stamp + 10⟩) ↔ d.hwAddr ≠ HwAddr.zero := by
      unfold Banned
      by_cases hz : d.hwAddr = HwAddr.zero
      · refine iff_of_false (fun hc => ?_) (not_not.mpr hz)
        rw [hz, OrdMap.find?_insert_self] at hc
        exact stamp_add_ne_max env (congrArg Lease.expiry (Option.some.inj hc))
      · rw [OrdMap.find?_insert_of_ne _ _ (Ne.symm hz)]
        exact iff_of_true hlive hz
    have hne := offer_ne_iff hlive ho
    simp only [List.mem_singleton, forall_eq, DiscoverSpares, forall_prop_of_true ha, hban,
      hty, true_or, forall_prop_of_true, ← offerAddress_eq_none hlive, ho, reduceCtorEq, imp_false]
    rw [show (offerReply cfg d options offer).assignedIp = offer from rfl, hne, and_assoc]

lemma request_spares_iff (hb : Banned address leases) :
    ((∀ e ∈ (handleRequest host cfg env d leases).enqueued,
        HasType e.2 DHCP_TYPE_OFFER ∨ HasType e.2 DHCP_TYPE_ACK → e.2.assignedIp ≠ address) ∧
      Banned address (handleRequest host cfg env d leases).leases) ↔
      (requestedAddress d = .ok address → inSubnet host cfg address = true →
        ((updateLeases env.purge leases).find? d.hwAddr).map Lease.addr ≠ some address) := by
  have hlive := hb.updateLeases env
  have hnak : ∀ dest : SockaddrIn, ∀ e ∈ [(dest, nak d)],
      HasType e.2 DHCP_TYPE_OFFER ∨ HasType e.2 DHCP_TYPE_ACK → e.2.assignedIp ≠ address := by
    intro dest e he hty
    rw [List.mem_singleton.mp he] at hty
    rcases hty with hty | hty
    · exact absurd hty (hasType_nak.not_of_ne (by decide))
    · exact absurd hty (hasType_nak.not_of_ne (by decide))
  have h := requested host cfg env d leases
  generalize handleRequest host cfg env d leases = o at h ⊢
  cases h with
  | malformed hr =>
    refine iff_of_true ⟨by simp [Outcome.throw], hb⟩ fun hc => ?_
    rw [hr] at hc
    cases hc
  | foreign hr hs dest =>
    refine iff_of_true ⟨hnak dest, hb⟩ fun hc hin => ?_
    rw [hr] at hc
    rw [Except.ok.inj hc, hin] at hs
    cases hs
  | refused hr hs hl dest =>
    refine iff_of_true ⟨hnak dest, hlive⟩ fun hc _ hown => ?_
    obtain ⟨lease, hlease, hla⟩ := Option.map_eq_some_iff.mp hown
    rw [hr] at hc
    exact hl lease hlease (hla.trans (Except.ok.inj hc).symm)
  | granted hr hs hl hla dest =>
    rename_i granted lease
    by_cases hg : granted = address
    · -- the client's lease is for the declined address
      subst hg
      refine iff_of_false (fun hc => ?_) fun hc => hc hr hs (by rw [hl, ← hla]; rfl)
      exact hc.1 _ (List.mem_singleton.mpr rfl) (Or.inr (hasType_ack granted)) rfl
    · refine iff_of_true ⟨fun e he _ => ?_, ?_⟩ fun hc => ?_
      · rw [List.mem_singleton.mp he]
        exact hg
      · have hz : HwAddr.zero ≠ d.hwAddr := by
          intro hz
          rw [← hz, hlive, Option.some.injEq] at hl
          exact hg (hla ▸ hl ▸ rfl)
        exact (OrdMap.find?_insert_of_ne _ _ hz).trans hlive
      · rw [hr] at hc
        exact absurd (Except.ok.inj hc) hg

/-- **One packet.** It neither gives the declined address away nor loses track of it exactly
if it meets the condition. -/
theorem spares_step_iff (hopt : DHCP_MESSAGE_TYPE ∉ cfg.definedOptions) {s : State} {ev : Event}
    (hb : Banned address s.leases) (hp : Proper host cfg s ev) :
    (NotGranted host cfg address s ev ∧ Banned address (step host cfg s ev).leases) ↔
      Spares host cfg address s ev := by
  unfold NotGranted
  show (_ ∧ Banned address (handle host cfg s ev).leases) ↔ _
  have hd := hp.2
  have h := acted hd
  generalize handle host cfg s ev = o at h hd ⊢
  cases h with
  | discover hm =>
    rw [discovery_spares_iff hb hd]
    simp [Spares, hm.iff, DHCP_TYPE_DISCOVER, DHCP_TYPE_REQUEST, DHCP_TYPE_RELEASE,
      DHCP_TYPE_DECLINE]
  | request hm =>
    rw [request_spares_iff hb]
    simp [Spares, hm.iff, DHCP_TYPE_DISCOVER, DHCP_TYPE_REQUEST, DHCP_TYPE_RELEASE,
      DHCP_TYPE_DECLINE]
  | release hm =>
    have herase : Banned address (s.leases.erase ev.datagram.hwAddr) ↔
        ev.datagram.hwAddr ≠ HwAddr.zero := by
      unfold Banned
      rw [OrdMap.find?_erase]
      split_ifs with hz
      · simp [← hz]
      · exact iff_of_true hb (Ne.symm hz)
    simp [Spares, Outcome.ret, herase, hm.iff, DHCP_TYPE_DISCOVER, DHCP_TYPE_REQUEST,
      DHCP_TYPE_RELEASE, DHCP_TYPE_DECLINE]
  | decline hm =>
    have hi := declined ev.datagram s.leases
    generalize handleDecline ev.datagram s.leases = o at hi ⊢
    cases hi with
    | failed hr hf =>
      simp [Spares, Outcome.throw, hb, hr, hm.iff, DHCP_TYPE_DISCOVER, DHCP_TYPE_REQUEST,
        DHCP_TYPE_RELEASE, DHCP_TYPE_DECLINE]
    | banned hr =>
      simp [Spares, Outcome.ret, Banned, hr, hm.iff, DHCP_TYPE_DISCOVER, DHCP_TYPE_REQUEST,
        DHCP_TYPE_RELEASE, DHCP_TYPE_DECLINE]
  | quiet hn hl hq =>
    -- none of the four messages, and an answer to an INFORM at most
    have hn1 : ¬ IsMessage ev.datagram DHCP_TYPE_DISCOVER := hn _ (by simp [leaseTypes])
    have hn3 : ¬ IsMessage ev.datagram DHCP_TYPE_REQUEST := hn _ (by simp [leaseTypes])
    have hn7 : ¬ IsMessage ev.datagram DHCP_TYPE_RELEASE := hn _ (by simp [leaseTypes])
    have hn4 : ¬ IsMessage ev.datagram DHCP_TYPE_DECLINE := hn _ (by simp [leaseTypes])
    rw [hl]
    refine iff_of_true ⟨fun e he hty => ?_, hb⟩ ⟨fun hm => absurd hm hn1,
      fun hm => absurd hm hn3, fun hm => absurd hm hn7, fun hm => absurd hm hn4⟩
    obtain ⟨h2, h5⟩ := hq hopt e he
    exact absurd hty (not_or.mpr ⟨h2, h5⟩)

/-! ### Runs -/

lemma banned_step {s : State} {ev : Event} (hp : Proper host cfg s ev)
    (hm : IsMessage ev.datagram DHCP_TYPE_DECLINE) (ha : requestedIp ev.datagram = some address) :
    Banned address (step host cfg s ev).leases := by
  show Banned address (handle host cfg s ev).leases
  rw [handle_of_message hp.2 hm, if_neg (by decide), if_neg (by decide), if_neg (by decide),
    if_neg (by decide), if_pos rfl]
  have hi := declined ev.datagram s.leases
  generalize handleDecline ev.datagram s.leases = o at hi ⊢
  cases hi with
  | failed hr hf =>
    rw [ha] at hr
    cases hr
  | banned hr =>
    rw [ha] at hr
    cases hr
    exact OrdMap.find?_insert_self _ _ _

/-- **A declined address stays out of circulation** in every continuation whose packets all
meet the condition. -/
theorem declined_stays_out (host : ByteOrder) (cfg : SubnetConfiguration)
    (hcfg : Config.Served host cfg) (es fs : List Event) (ev : Event) (address : UInt32)
    (hrun : Meets (step host cfg) (Proper host cfg) init (es ++ ev :: fs))
    (hm : IsMessage ev.datagram DHCP_TYPE_DECLINE) (ha : requestedIp ev.datagram = some address)
    (hs : Meets (step host cfg) (Spares host cfg address)
      (run (step host cfg) init (es ++ [ev])) fs) :
    Meets (step host cfg) (NotGranted host cfg address)
      (run (step host cfg) init (es ++ [ev])) fs := by
  have hopt := hcfg.messageType_notMem
  obtain ⟨-, hp, hrest⟩ := meets_append.mp hrun
  rw [run_append, run_cons, run_nil] at hs ⊢
  have hb := banned_step hp hm ha
  have hboth := meets_and.mpr ⟨hrest, hs⟩
  refine meets_of_invariant (I := fun s => Banned address s.leases) (fun s ev hI h => ?_)
    (fun s ev hI h => ?_) hb hboth
  · exact ((spares_step_iff hopt hI h.1).mpr h.2).2
  · exact ((spares_step_iff hopt hI h.1).mpr h.2).1

def declining (address : UInt32) : Event :=
  ⟨at100, message DHCP_TYPE_DECLINE (client 1) (some address)⟩

def discovering : Event := ⟨at100, message DHCP_TYPE_DISCOVER (client 2) none⟩

theorem declined_stays_out_of_one_discover :
    Meets (step .little Config.exampleConfig) (NotGranted .little Config.exampleConfig 0x7f000a0a)
      (run (step .little Config.exampleConfig) init ([] ++ [declining 0x7f000a0a]))
      [discovering] :=
  declined_stays_out .little Config.exampleConfig (Or.inr Config.accepted_exampleConfig) []
    [discovering] (declining 0x7f000a0a) 0x7f000a0a (by decide +kernel) (by decide +kernel)
    (by decide +kernel) (by decide +kernel)

/-- A second DECLINE takes the place of the first, and the first declined address is offered
again. -/
theorem second_decline_lifts_first :
    Config.Accepted .little Config.exampleConfig ∧
      Meets (step .little Config.exampleConfig) (Proper .little Config.exampleConfig) init
        [declining 0x7f000a0a, declining 0x7f000a63, discovering] ∧
      IsMessage (declining 0x7f000a0a).datagram DHCP_TYPE_DECLINE ∧
      requestedIp (declining 0x7f000a0a).datagram = some 0x7f000a0a ∧
      ¬ NotGranted .little Config.exampleConfig 0x7f000a0a
        (run (step .little Config.exampleConfig) init
          [declining 0x7f000a0a, declining 0x7f000a63]) discovering := by
  refine ⟨Config.accepted_exampleConfig, by decide +kernel, by decide +kernel, by decide +kernel,
    fun h => ?_⟩
  have hoffer : ∃ e ∈ (handle .little Config.exampleConfig
      (run (step .little Config.exampleConfig) init
        [declining 0x7f000a0a, declining 0x7f000a63]) discovering).enqueued,
      HasType e.2 DHCP_TYPE_OFFER ∧ e.2.assignedIp = 0x7f000a0a := by decide +kernel
  obtain ⟨e, he, hty, hip⟩ := hoffer
  exact h e he (Or.inl hty) hip

end TinyDhcpd.Decline
