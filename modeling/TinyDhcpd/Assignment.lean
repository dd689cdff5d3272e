import TinyDhcpd.Handlers

/-!
When no address is held by two clients at once.

An address is given away in `handle_discovery` only, and none of its four sources is checked
against the leases of the other clients: the `ciaddr` of the packet is taken as it is, a
reserved address is handed out even while somebody else has it, and the search through the
range looks at one lease. A run stays free of double assignments exactly when each DISCOVER
is served from a source that happens to be free; the condition is stated source by source.
-/

namespace TinyDhcpd.Assignment

open Bytes OptionTag Daemon Run

/-- No two clients hold an address at the time. The all-zero key is not a client. -/
def Exclusive (time : UInt64) (leases : LeaseTable) : Prop :=
  ∀ k k' l l', k ≠ k' → k ≠ HwAddr.zero → k' ≠ HwAddr.zero → leases.find? k = some l →
    leases.find? k' = some l' → time < l.expiry → time < l'.expiry → l.addr ≠ l'.addr

/-- No client but `key` holds the address at the time. -/
def Unclaimed (time : UInt64) (leases : LeaseTable) (key : HwAddr) (address : UInt32) : Prop :=
  ∀ k l, k ≠ key → k ≠ HwAddr.zero → leases.find? k = some l → time < l.expiry →
    l.addr ≠ address

variable {host : ByteOrder} {cfg : SubnetConfiguration} {time : UInt64} {leases : LeaseTable}

lemma exclusive_empty (time : UInt64) : Exclusive time .empty := by
  intro k k' l l' _ _ _ h
  simp at h

lemma Exclusive.later {time' : UInt64} (h : Exclusive time leases) (ht : time ≤ time') :
    Exclusive time' leases := by
  intro k k' l l' hne hk hk' hl hl' he he'
  exact h k k' l l' hne hk hk' hl hl' (by grind) (by grind)

lemma Exclusive.sub {fewer : LeaseTable} (h : Exclusive time leases)
    (hs : ∀ k l, fewer.find? k = some l → leases.find? k = some l) : Exclusive time fewer :=
  fun k k' l l' hne hk hk' hl hl' => h k k' l l' hne hk hk' (hs k l hl) (hs k' l' hl')

lemma Exclusive.updateLeases (h : Exclusive time leases) (purge : UInt64) :
    Exclusive time (updateLeases purge leases) :=
  h.sub fun _ _ hl => (find?_updateLeases_eq_some.mp hl).1

lemma Exclusive.erase (h : Exclusive time leases) (key : HwAddr) :
    Exclusive time (leases.erase key) :=
  h.sub fun _ _ hl => OrdMap.find?_of_erase hl

lemma Exclusive.insert_zero (h : Exclusive time leases) (lease : Lease) :
    Exclusive time (leases.insert HwAddr.zero lease) := by
  intro k k' l l' hne hk hk' hl hl'
  rw [OrdMap.find?_insert_of_ne _ _ hk] at hl
  rw [OrdMap.find?_insert_of_ne _ _ hk'] at hl'
  exact h k k' l l' hne hk hk' hl hl'

lemma unclaimed_updateLeases {purge : UInt64} (hp : purge ≤ time) (key : HwAddr)
    (address : UInt32) :
    Unclaimed time (updateLeases purge leases) key address ↔ Unclaimed time leases key address := by
  constructor
  · intro h k l hk hz hl he
    exact h k l hk hz (find?_updateLeases_eq_some.mpr ⟨hl, by grind⟩) he
  · intro h k l hk hz hl he
    exact h k l hk hz (find?_updateLeases_eq_some.mp hl).1 he

lemma Exclusive.insert (h : Exclusive time leases) {key : HwAddr} {lease : Lease}
    (hu : Unclaimed time leases key lease.addr) : Exclusive time (leases.insert key lease) := by
  intro k k' l l' hne hk hk' hl hl' hle hle'
  rw [OrdMap.find?_insert] at hl hl'
  split_ifs at hl hl' with h1 h2 h2
  · exact absurd (h1.trans h2.symm) hne
  · obtain rfl := Option.some.inj hl
    exact (hu k' l' h2 hk' hl' hle').symm
  · obtain rfl := Option.some.inj hl'
    exact hu k l h1 hk hl hle
  · exact h k k' l l' hne hk hk' hl hl' hle hle'

lemma exclusive_insert_iff {key : HwAddr} (hz : key ≠ HwAddr.zero) {lease : Lease}
    (he : time < lease.expiry) (h : Exclusive time leases) :
    Exclusive time (leases.insert key lease) ↔ Unclaimed time leases key lease.addr := by
  refine ⟨fun hi k l hk hkz hl hle => ?_, h.insert⟩
  refine (hi key k lease l (Ne.symm hk) hz hkz ?_ ?_ he hle).symm
  · rw [OrdMap.find?_insert_self]
  · rw [OrdMap.find?_insert_of_ne _ _ hk, hl]

lemma Exclusive.unclaimed {key : HwAddr} (hz : key ≠ HwAddr.zero) {lease : Lease}
    (h : Exclusive time leases) (hl : leases.find? key = some lease) {time' : UInt64}
    (ht : time ≤ time') (he : time < lease.expiry) :
    Unclaimed time' leases key lease.addr := by
  intro k l hk hkz hkl hle
  exact h k key l lease hk hkz hz hkl hl (by grind) he

/-! ### The condition on a DISCOVER -/

/-- The source a DISCOVER is served from is not claimed by another client. The leases that
count for the choice are those that survive the purge, `live`. -/
structure SourceFree (host : ByteOrder) (cfg : SubnetConfiguration) (env : Env)
    (d : DhcpDatagram) (leases live : LeaseTable) : Prop where
  ciaddr : keeps host cfg d live = none → d.clientIp ≠ INADDR_ANY →
    Unclaimed env.stamp leases d.hwAddr d.clientIp
  reserved : wish host cfg d live = INADDR_ANY → ∀ reserved,
    cfg.fixedHosts.lookup (clientMac d) = some reserved →
    Unclaimed env.stamp leases d.hwAddr (ntohl host reserved)
  start : wish host cfg d live = INADDR_ANY → cfg.fixedHosts.lookup (clientMac d) = none →
    ∀ first, live.first? = some first → first.2.addr ≠ ntohl host cfg.rangeStart →
    ntohl host cfg.rangeStart < ntohl host cfg.rangeEnd →
    Unclaimed env.stamp leases d.hwAddr (ntohl host cfg.rangeStart)
  next : wish host cfg d live = INADDR_ANY → cfg.fixedHosts.lookup (clientMac d) = none →
    ∀ first, live.first? = some first → first.2.addr = ntohl host cfg.rangeStart →
    ntohl host cfg.rangeStart + 1 < ntohl host cfg.rangeEnd →
    Unclaimed env.stamp leases d.hwAddr (ntohl host cfg.rangeStart + 1)

/-- The condition on a packet: if it is a DISCOVER of a client that is not turned away by an
exception, its source is free. -/
def SafeStep (host : ByteOrder) (cfg : SubnetConfiguration) (s : State) (ev : Event) : Prop :=
  IsMessage ev.datagram DHCP_TYPE_DISCOVER → ev.datagram.hwAddr ≠ HwAddr.zero →
    Answerable ev.datagram (updateLeases ev.env.purge s.leases) →
    SourceFree host cfg ev.env ev.datagram s.leases (updateLeases ev.env.purge s.leases)

variable {env : Env} {d : DhcpDatagram}

lemma sourceFree_of_unclaimed {live : LeaseTable}
    (h : ∀ offer, offerAddress host cfg (clientMac d) (wish host cfg d live) live = some offer →
      Unclaimed env.stamp leases d.hwAddr offer) :
    SourceFree host cfg env d leases live where
  ciaddr hk hc := by
    have hw : wish host cfg d live = d.clientIp := by simp [wish, hk]
    refine h _ (offerAddress_eq_some.mpr ?_)
    rw [hw]
    exact .wanted hc
  reserved hw _ hf := h _ (offerAddress_eq_some.mpr (.reserved hw hf))
  start hw hf _ he hne hlt := h _ (offerAddress_eq_some.mpr (.start hw hf he hne hlt))
  next hw hf _ he heq hlt := h _ (offerAddress_eq_some.mpr (.next hw hf he heq hlt))

lemma unclaimed_of_sourceFree (hx : Exclusive time leases) (ht : time ≤ env.purge)
    (hz : d.hwAddr ≠ HwAddr.zero)
    (hs : SourceFree host cfg env d leases (updateLeases env.purge leases)) {offer : UInt32}
    (ho : offerAddress host cfg (clientMac d)
      (wish host cfg d (updateLeases env.purge leases)) (updateLeases env.purge leases) =
        some offer) :
    Unclaimed env.stamp leases d.hwAddr offer := by
  have hps := env.purge_le_stamp
  cases offerAddress_eq_some.mp ho with
  | wanted hw =>
    cases hk : keeps host cfg d (updateLeases env.purge leases) with
    | none =>
      have hc : wish host cfg d (updateLeases env.purge leases) = d.clientIp := by simp [wish, hk]
      rw [hc] at hw ⊢
      exact hs.ciaddr hk hw
    | some address =>
      -- the client's own lease
      obtain ⟨lease, hl, rfl⟩ := lease_of_keeps hk
      obtain ⟨hl, he⟩ := find?_updateLeases_eq_some.mp hl
      have hc : wish host cfg d (updateLeases env.purge leases) = lease.addr := by simp [wish, hk]
      rw [hc]
      exact hx.unclaimed hz hl (by grind) (by grind)
  | reserved hw hf => exact hs.reserved hw _ hf
  | unused hw hf he =>
    -- a table that is empty after the purge claims nothing
    rw [← unclaimed_updateLeases hps]
    intro k l _ _ hl
    have hnil : (updateLeases env.purge leases).entries = [] := List.head?_eq_none_iff.mp he
    have hmem := OrdMap.find?_eq_some.mp hl
    rw [hnil] at hmem
    cases hmem
  | start hw hf he hne hlt => exact hs.start hw hf _ he hne hlt
  | next hw hf he heq hlt => exact hs.next hw hf _ he heq hlt

/-! ### One step -/

lemma exclusive_discovery_iff (hx : Exclusive time leases) (ht : time ≤ env.purge)
    (hd : (handleDiscovery host cfg env d leases).Defined) :
    Exclusive env.stamp (handleDiscovery host cfg env d leases).leases ↔
      (d.hwAddr ≠ HwAddr.zero → Answerable d (updateLeases env.purge leases) →
        SourceFree host cfg env d leases (updateLeases env.purge leases)) := by
  have hps := env.purge_le_stamp
  have hlive : Exclusive env.stamp (updateLeases env.purge leases) :=
    (hx.later (UInt64.le_trans ht hps)).updateLeases env.purge
  have h := discovered host cfg env d leases
  generalize handleDiscovery host cfg env d leases = o at h hd ⊢
  cases h with
  | overflow hlen => exact absurd rfl (hd 6)
  | refused hlen ha => exact iff_of_true hlive fun _ hc => absurd hc ha
  | exhausted hlen ha ho =>
    refine iff_of_true hlive fun _ _ => sourceFree_of_unclaimed fun offer h => ?_
    rw [ho] at h
    cases h
  | offered hlen ha ho dest options =>
    by_cases hz : d.hwAddr = HwAddr.zero
    · refine iff_of_true ?_ fun hne => absurd hz hne
      rw [hz]
      exact hlive.insert_zero _
    · have he : env.stamp < env.stamp + 10 := by
        rw [UInt64.lt_iff_toNat_lt, env.toNat_stamp_add (by decide)]
        exact Nat.lt_add_of_pos_right (by decide)
      rw [exclusive_insert_iff hz he hlive, unclaimed_updateLeases hps]
      constructor
      · intro hu _ _
        refine sourceFree_of_unclaimed fun offer h => ?_
        rw [ho] at h
        exact Option.some.inj h ▸ hu
      · exact fun hs => unclaimed_of_sourceFree hx ht hz (hs hz ha) ho

lemma exclusive_request (hx : Exclusive time leases) (ht : time ≤ env.purge) :
    Exclusive env.stamp (handleRequest host cfg env d leases).leases := by
  have hps := env.purge_le_stamp
  have hnow : Exclusive env.stamp leases := hx.later (UInt64.le_trans ht hps)
  have h := requested host cfg env d leases
  generalize handleRequest host cfg env d leases = o at h ⊢
  cases h with
  | malformed hr => exact hnow
  | foreign hr hs dest => exact hnow
  | refused hr hs hl dest => exact hnow.updateLeases env.purge
  | granted hr hs hl hla dest =>
    by_cases hz : d.hwAddr = HwAddr.zero
    · rw [hz]
      exact (hnow.updateLeases env.purge).insert_zero _
    · -- the client keeps the address it has
      obtain ⟨hl, he⟩ := find?_updateLeases_eq_some.mp hl
      have hu := hx.unclaimed hz hl (UInt64.le_trans ht hps) (by grind)
      rw [hla, ← unclaimed_updateLeases hps] at hu
      exact (hnow.updateLeases env.purge).insert hu

/-- **One packet.** From a state without double assignments, a step leads to another exactly
if it is safe. -/
theorem exclusive_step_iff {s : State} {ev : Event} (hx : Exclusive s.clock s.leases)
    (hp : Proper host cfg s ev) :
    Exclusive (step host cfg s ev).clock (step host cfg s ev).leases ↔ SafeStep host cfg s ev := by
  obtain ⟨ht, hd⟩ := hp
  have hps := ev.env.purge_le_stamp
  have hnow : Exclusive ev.env.stamp s.leases := hx.later (UInt64.le_trans ht hps)
  have other {t : UInt8} (hm : IsMessage ev.datagram t) (hne : t ≠ DHCP_TYPE_DISCOVER) :
      SafeStep host cfg s ev := fun h => absurd h (hm.not_of_ne hne)
  show Exclusive ev.env.stamp (handle host cfg s ev).leases ↔ _
  have h := acted hd
  generalize handle host cfg s ev = o at h hd ⊢
  cases h with
  | discover hm =>
    rw [exclusive_discovery_iff hx ht hd]
    exact ⟨fun hs _ => hs, fun hs => hs hm⟩
  | request hm => exact iff_of_true (exclusive_request hx ht) (other hm (by decide))
  | release hm => exact iff_of_true (hnow.erase _) (other hm (by decide))
  | decline hm =>
    have hi := declined ev.datagram s.leases
    generalize handleDecline ev.datagram s.leases = o at hi ⊢
    refine iff_of_true ?_ (other hm (by decide))
    cases hi with
    | failed hr hf => exact hnow
    | banned hr => exact hnow.insert_zero _
  | quiet hn hl _ =>
    rw [hl]
    exact iff_of_true hnow fun hm => absurd hm (hn _ (by simp [leaseTypes]))

/-! ### Runs -/

/-- **No double assignment.** Along an execution no address is held by two clients exactly if
each DISCOVER is served from a free source. -/
theorem exclusive_run_iff (host : ByteOrder) (cfg : SubnetConfiguration) (es : List Event)
    (h : Meets (step host cfg) (Proper host cfg) init es) :
    (∀ p, p <+: es → Exclusive (run (step host cfg) init p).clock
      (run (step host cfg) init p).leases) ↔ Meets (step host cfg) (SafeStep host cfg) init es :=
  invariant_iff (I := fun s => Exclusive s.clock s.leases)
    (fun _ _ hx hp => exclusive_step_iff hx hp) (exclusive_empty 0) h

/-- DISCOVERs at one time, one from each client. -/
def discovers (clients : List UInt8) : List Event :=
  clients.map fun n => ⟨at100, message DHCP_TYPE_DISCOVER (client n) none⟩

theorem exclusive_run_iff_two_discovers :
    (∀ p, p <+: discovers [1, 2] → Exclusive (run (step .little Config.exampleConfig) init p).clock
      (run (step .little Config.exampleConfig) init p).leases) ↔
    Meets (step .little Config.exampleConfig) (SafeStep .little Config.exampleConfig) init
      (discovers [1, 2]) :=
  exclusive_run_iff .little Config.exampleConfig (discovers [1, 2]) (by decide +kernel)

/-- The search compares with the first lease only, so that the second and the third client
are offered the same address. -/
theorem three_discovers_clash :
    Config.Accepted .little Config.exampleConfig ∧
      Meets (step .little Config.exampleConfig) (Proper .little Config.exampleConfig) init
        (discovers [1, 2, 3]) ∧
      ¬ Exclusive (run (step .little Config.exampleConfig) init (discovers [1, 2, 3])).clock
        (run (step .little Config.exampleConfig) init (discovers [1, 2, 3])).leases := by
  refine ⟨Config.accepted_exampleConfig, by decide +kernel, fun h => ?_⟩
  exact h (client 2) (client 3) ⟨0x7f000a0b, 110⟩ ⟨0x7f000a0b, 110⟩ (by decide) (by decide)
    (by decide) (by decide +kernel) (by decide +kernel) (by decide +kernel) (by decide +kernel) rfl

end TinyDhcpd.Assignment
