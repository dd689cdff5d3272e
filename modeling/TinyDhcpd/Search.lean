import TinyDhcpd.Handlers

/-!
The search for a free address, and what a second DISCOVER finds.

A DISCOVER that names no address is served from the range, unless its client has a
reservation. The loop of the search leaves in its first round: it compares the first address
of the range with the first lease of the table and, if they are equal, goes on to the second
address of the range; the last address is never reached. The lease it looks at may be the
client's own, which an earlier DISCOVER has left there.
-/

namespace TinyDhcpd.Search

open Bytes OptionTag Daemon

/-- The outcome offers the address. -/
def Offers (o : Outcome) (address : UInt32) : Prop :=
  ∃ e ∈ o.enqueued, HasType e.2 DHCP_TYPE_OFFER ∧ e.2.assignedIp = address

instance (o : Outcome) (address : UInt32) : Decidable (Offers o address) :=
  inferInstanceAs (Decidable (∃ e ∈ _, _))

structure Unspecific (d : DhcpDatagram) : Prop where
  ciaddr : d.clientIp = INADDR_ANY
  option : d.options.lookup REQUESTED_IP_ADDRESS = none

/-- No key but the client's has the address. -/
def Vacant (live : LeaseTable) (key : HwAddr) (address : UInt32) : Prop :=
  ∀ k lease, k ≠ key → live.find? k = some lease → lease.addr ≠ address

/-- An address of the range that no other key has. -/
def Available (host : ByteOrder) (cfg : SubnetConfiguration) (live : LeaseTable) (key : HwAddr)
    (address : UInt32) : Prop :=
  ntohl host cfg.rangeStart ≤ address ∧ address ≤ ntohl host cfg.rangeEnd ∧
    Vacant live key address

variable {host : ByteOrder} {cfg : SubnetConfiguration} {env : Env} {d : DhcpDatagram}
  {leases : LeaseTable}

/-! ### What is offered -/

lemma offers_discovery_iff {offer : UInt32} :
    Offers (handleDiscovery host cfg env d leases) offer ↔
      ¬ 6 < d.hwaddrLen ∧ Answerable d (updateLeases env.purge leases) ∧
        offerAddress host cfg (clientMac d) (wish host cfg d (updateLeases env.purge leases))
          (updateLeases env.purge leases) = some offer := by
  have h := discovered host cfg env d leases
  generalize handleDiscovery host cfg env d leases = o at h ⊢
  cases h with
  | overflow hlen => exact iff_of_false (by simp [Offers, Outcome.throw]) fun hc => hc.1 hlen
  | refused hlen ha => exact iff_of_false (by simp [Offers, Outcome.throw]) fun hc => ha hc.2.1
  | exhausted hlen ha ho => simp [Offers, Outcome.ret, ho]
  | offered hlen ha ho dest options =>
    rename_i offered
    have hty : HasType (offerReply cfg d options offered) DHCP_TYPE_OFFER := hasType_offerReply _ _
    simp only [Offers, List.mem_singleton, exists_eq_left, hty, true_and, hlen, not_false_eq_true,
      ha, ho, Option.some.injEq]
    rfl

lemma Unspecific.wish_eq (h : Unspecific d) (live : LeaseTable) :
    wish host cfg d live = INADDR_ANY := by
  simp [wish, keeps, requestedIp, h.option, h.ciaddr]

lemma Unspecific.answerable (h : Unspecific d) (live : LeaseTable) : Answerable d live :=
  ⟨by simp [h.option], fun _ hc => absurd h.ciaddr hc⟩

lemma Unspecific.offers_iff (h : Unspecific d) (hlen : ¬ 6 < d.hwaddrLen) {offer : UInt32} :
    Offers (handleDiscovery host cfg env d leases) offer ↔
      offerAddress host cfg (clientMac d) INADDR_ANY (updateLeases env.purge leases) =
        some offer := by
  rw [offers_discovery_iff, h.wish_eq]
  simp [hlen, h.answerable]

lemma Unspecific.offers_search_iff (h : Unspecific d) (hlen : ¬ 6 < d.hwaddrLen)
    (hf : cfg.fixedHosts.lookup (clientMac d) = none) {offer : UInt32} :
    Offers (handleDiscovery host cfg env d leases) offer ↔
      searchRange (ntohl host cfg.rangeStart) (ntohl host cfg.rangeEnd)
        (updateLeases env.purge leases).entries = some offer := by
  rw [h.offers_iff hlen, offerAddress, if_pos rfl, hf]

/-! ### The search -/

/-- The search is exact: there is an offer if and only if an address is available, and what is
offered is available. -/
def SearchExact (host : ByteOrder) (cfg : SubnetConfiguration) (env : Env) (d : DhcpDatagram)
    (leases : LeaseTable) : Prop :=
  ((∃ offer, Offers (handleDiscovery host cfg env d leases) offer) ↔
      ∃ address, Available host cfg (updateLeases env.purge leases) d.hwAddr address) ∧
    ∀ offer, Offers (handleDiscovery host cfg env d leases) offer →
      Available host cfg (updateLeases env.purge leases) d.hwAddr offer

/-- The condition on the leases that survive the purge. While there are any, the address the
search comes up with is vacant; and where it gives up, the whole range is taken: it has one
address, or, behind a lease for the first one, at most two. -/
structure FirstLeaseDecides (host : ByteOrder) (cfg : SubnetConfiguration) (live : LeaseTable)
    (key : HwAddr) : Prop where
  start : ∀ first, live.first? = some first → first.2.addr ≠ ntohl host cfg.rangeStart →
    ntohl host cfg.rangeStart < ntohl host cfg.rangeEnd →
    Vacant live key (ntohl host cfg.rangeStart)
  single : ∀ first, live.first? = some first → first.2.addr ≠ ntohl host cfg.rangeStart →
    ¬ ntohl host cfg.rangeStart < ntohl host cfg.rangeEnd →
    ¬ Vacant live key (ntohl host cfg.rangeStart)
  next : ∀ first, live.first? = some first → first.2.addr = ntohl host cfg.rangeStart →
    ntohl host cfg.rangeStart + 1 < ntohl host cfg.rangeEnd →
    ntohl host cfg.rangeStart ≠ 0xffffffff ∧ Vacant live key (ntohl host cfg.rangeStart + 1)
  double : ∀ first, live.first? = some first → first.2.addr = ntohl host cfg.rangeStart →
    ¬ ntohl host cfg.rangeStart + 1 < ntohl host cfg.rangeEnd →
    ¬ Vacant live key (ntohl host cfg.rangeStart) ∧ ¬ Vacant live key (ntohl host cfg.rangeEnd)

lemma exact_of_result {P : UInt32 → Prop} (result : Option UInt32) :
    (((∃ offer, result = some offer) ↔ ∃ address, P address) ∧
        ∀ offer, result = some offer → P offer) ↔
      match result with
      | some offer => P offer
      | none => ∀ address, ¬ P address := by
  cases result with
  | none => simp
  | some offer =>
    simp only [Option.some.injEq, exists_eq', true_iff, forall_eq']
    exact ⟨And.right, fun h => ⟨⟨offer, h⟩, h⟩⟩

lemma eq_or_eq_of_mem_range {first last address : UInt32} (hl : ¬ first + 1 < last)
    (h1 : first ≤ address) (h2 : address ≤ last) : address = first ∨ address = last := by
  have h32 := first.toNat_lt
  have hl32 := last.toNat_lt
  rw [UInt32.lt_iff_toNat_lt, UInt32.toNat_add, UInt32.toNat_one] at hl
  rw [UInt32.le_iff_toNat_le] at h1 h2
  rw [← UInt32.toNat_inj, ← UInt32.toNat_inj]
  omega

lemma firstLeaseDecides_iff {live : LeaseTable} {key : HwAddr} {first : HwAddr × Lease}
    (h : live.first? = some first) :
    FirstLeaseDecides host cfg live key ↔
      if first.2.addr = ntohl host cfg.rangeStart then
        if ntohl host cfg.rangeStart + 1 < ntohl host cfg.rangeEnd then
          ntohl host cfg.rangeStart ≠ 0xffffffff ∧ Vacant live key (ntohl host cfg.rangeStart + 1)
        else
          ¬ Vacant live key (ntohl host cfg.rangeStart) ∧
            ¬ Vacant live key (ntohl host cfg.rangeEnd)
      else if ntohl host cfg.rangeStart < ntohl host cfg.rangeEnd then
        Vacant live key (ntohl host cfg.rangeStart)
      else ¬ Vacant live key (ntohl host cfg.rangeStart) := by
  constructor
  · intro hd
    split_ifs with heq hlt hlt
    · exact hd.next first h heq hlt
    · exact hd.double first h heq hlt
    · exact hd.start first h heq hlt
    · exact hd.single first h heq hlt
  · intro hif
    refine ⟨?_, ?_, ?_, ?_⟩
    all_goals
      intro f hf heq hlt
      obtain rfl := Option.some.inj (h.symm.trans hf)
      simpa only [heq, hlt, if_true, if_false] using hif

lemma searchExact_of_searched (hr : ntohl host cfg.rangeStart ≤ ntohl host cfg.rangeEnd)
    (hlen : ¬ 6 < d.hwaddrLen) (hd : Unspecific d)
    (hf : cfg.fixedHosts.lookup (clientMac d) = none) :
    SearchExact host cfg env d leases ↔
      FirstLeaseDecides host cfg (updateLeases env.purge leases) d.hwAddr := by
  simp only [SearchExact, hd.offers_search_iff hlen hf, searchRange_entries]
  generalize updateLeases env.purge leases = live
  rw [exact_of_result]
  cases hfirst : live.first? with
  | none =>
    -- without a lease the first address of the range is taken, and is vacant
    have hvacant : Vacant live d.hwAddr (ntohl host cfg.rangeStart) := by
      intro k lease _ hl
      obtain ⟨e, he⟩ := OrdMap.exists_first? hl
      rw [hfirst] at he
      cases he
    exact iff_of_true ⟨UInt32.le_refl _, hr, hvacant⟩
      ⟨by simp [hfirst], by simp [hfirst], by simp [hfirst], by simp [hfirst]⟩
  | some first =>
    simp only
    rw [firstLeaseDecides_iff hfirst]
    split_ifs with heq hlt hlt
    · -- the second address of the range
      rw [← le_add_one_iff]
      exact ⟨fun h => ⟨h.1, h.2.2⟩, fun h => ⟨h.1, UInt32.le_of_lt hlt, h.2⟩⟩
    · refine ⟨fun h => ⟨fun hv => h _ ⟨UInt32.le_refl _, hr, hv⟩,
        fun hv => h _ ⟨hr, UInt32.le_refl _, hv⟩⟩, ?_⟩
      rintro ⟨hstart, hend⟩ address ⟨h1, h2, hv⟩
      rcases eq_or_eq_of_mem_range hlt h1 h2 with rfl | rfl
      · exact hstart hv
      · exact hend hv
    · exact ⟨fun h => h.2.2, fun h => ⟨UInt32.le_refl _, hr, h⟩⟩
    · refine ⟨fun h hv => h _ ⟨UInt32.le_refl _, hr, hv⟩, ?_⟩
      rintro hstart address ⟨h1, h2, hv⟩
      have heq : address = ntohl host cfg.rangeStart :=
        UInt32.le_antisymm (UInt32.le_trans h2 (UInt32.not_lt.mp hlt)) h1
      exact hstart (heq ▸ hv)

/-- **The free-address search is exact** exactly if the first lease decides. A hardware address
that does not fit into an `ether_addr` overflows before the search, which is then exact only if
nothing is available. -/
theorem searchExact_iff (host : ByteOrder) (cfg : SubnetConfiguration) (env : Env)
    (d : DhcpDatagram) (leases : LeaseTable)
    (hr : ntohl host cfg.rangeStart ≤ ntohl host cfg.rangeEnd) (hd : Unspecific d)
    (hf : cfg.fixedHosts.lookup (clientMac d) = none) :
    SearchExact host cfg env d leases ↔
      if 6 < d.hwaddrLen then
        ∀ address, ¬ Available host cfg (updateLeases env.purge leases) d.hwAddr address
      else FirstLeaseDecides host cfg (updateLeases env.purge leases) d.hwAddr := by
  split_ifs with hlen
  · have hnone : ∀ offer, ¬ Offers (handleDiscovery host cfg env d leases) offer :=
      fun offer ho => (offers_discovery_iff.mp ho).1 hlen
    simp [SearchExact, hnone]
  · exact searchExact_of_searched hr hlen hd hf

def discover (n : UInt8) : DhcpDatagram := message DHCP_TYPE_DISCOVER (client n) none

lemma unspecific_discover (n : UInt8) : Unspecific (discover n) := by
  refine ⟨rfl, ?_⟩
  have hne : REQUESTED_IP_ADDRESS ≠ DHCP_MESSAGE_TYPE := by decide
  exact (Finmap.lookup_insert_of_ne _ hne).trans (Finmap.lookup_empty _)

def twoLeases : LeaseTable :=
  (OrdMap.empty.insert (client 1) ⟨0x7f000a0a, 200⟩).insert (client 2) ⟨0x7f000a0b, 200⟩

theorem searchExact_iff_twoLeases :
    SearchExact .little Config.exampleConfig at100 (discover 3) twoLeases ↔
      if 6 < (discover 3).hwaddrLen then
        ∀ address, ¬ Available .little Config.exampleConfig (updateLeases at100.purge twoLeases)
          (discover 3).hwAddr address
      else FirstLeaseDecides .little Config.exampleConfig (updateLeases at100.purge twoLeases)
        (discover 3).hwAddr :=
  searchExact_iff .little Config.exampleConfig at100 (discover 3) twoLeases (by decide +kernel)
    (unspecific_discover 3) (by decide +kernel)

/-- A third client is offered the address of the second. -/
theorem search_offers_taken :
    ntohl .little Config.exampleConfig.rangeStart ≤ ntohl .little Config.exampleConfig.rangeEnd ∧
      ¬ 6 < (discover 3).hwaddrLen ∧ Unspecific (discover 3) ∧
      Config.exampleConfig.fixedHosts.lookup (clientMac (discover 3)) = none ∧
      ¬ SearchExact .little Config.exampleConfig at100 (discover 3) twoLeases := by
  refine ⟨by decide +kernel, by decide, unspecific_discover 3, by decide +kernel, fun h => ?_⟩
  have hoffer : Offers (handleDiscovery .little Config.exampleConfig at100 (discover 3) twoLeases)
      0x7f000a0b := by decide +kernel
  obtain ⟨-, -, hvacant⟩ := h.2 _ hoffer
  exact hvacant (client 2) ⟨0x7f000a0b, 200⟩ (by decide) (by decide +kernel) rfl

/-! ### A second DISCOVER -/

/-- The condition for the same offer, on the leases before the first of the two DISCOVERs and
the times of their purges. The client has a reservation; or the search looks both times at the
lease of another client, and either both of these are for the first address of the range or
none is. -/
def Settled (host : ByteOrder) (cfg : SubnetConfiguration) (d : DhcpDatagram)
    (leases : LeaseTable) (purge purge' : UInt64) : Prop :=
  cfg.fixedHosts.lookup (clientMac d) ≠ none ∨
    ∃ first later, (updateLeases purge leases).first? = some first ∧
      ((updateLeases purge' leases).erase d.hwAddr).first? = some later ∧ later.1 < d.hwAddr ∧
      (later.2.addr = ntohl host cfg.rangeStart ↔ first.2.addr = ntohl host cfg.rangeStart)

lemma leases_of_offers {offer : UInt32}
    (h : Offers (handleDiscovery host cfg env d leases) offer) :
    (handleDiscovery host cfg env d leases).leases =
      (updateLeases env.purge leases).insert d.hwAddr ⟨offer, env.stamp + 10⟩ := by
  have hd := discovered host cfg env d leases
  generalize handleDiscovery host cfg env d leases = o at h hd ⊢
  obtain ⟨e, he, -, hip⟩ := h
  cases hd with
  | overflow hlen => cases he
  | refused hlen ha => cases he
  | exhausted hlen ha ho => cases he
  | offered hlen ha ho dest options =>
    rw [List.mem_singleton.mp he] at hip
    rw [← hip]
    rfl

lemma updateLeases_of_offers {env' : Env} {offer : UInt32}
    (h : Offers (handleDiscovery host cfg env d leases) offer) (ht : env.stamp ≤ env'.purge)
    (ht' : env'.purge < env.stamp + 10) :
    updateLeases env'.purge (handleDiscovery host cfg env d leases).leases =
      (updateLeases env'.purge leases).insert d.hwAddr ⟨offer, env.stamp + 10⟩ := by
  have hpp : env.purge ≤ env'.purge := UInt64.le_trans env.purge_le_stamp ht
  rw [leases_of_offers h, updateLeases_insert ht', updateLeases_updateLeases hpp]

def pick (start rangeEnd address : UInt32) : Option UInt32 :=
  if address = start then if start + 1 < rangeEnd then some (start + 1) else none
  else if start < rangeEnd then some start else none

lemma searchRange_of_first {live : LeaseTable} {first : HwAddr × Lease} (start rangeEnd : UInt32)
    (h : live.first? = some first) :
    searchRange start rangeEnd live.entries = pick start rangeEnd first.2.addr := by
  rw [searchRange_entries, h]
  rfl

lemma pick_ne_self (start rangeEnd address : UInt32) :
    pick start rangeEnd address ≠ some address := by
  unfold pick
  split_ifs with heq
  · rw [heq]
    simp
  · simp
  · exact fun h => heq (Option.some.inj h).symm
  · simp

lemma pick_eq_some_iff {start rangeEnd address address' offer : UInt32}
    (h : pick start rangeEnd address = some offer) :
    pick start rangeEnd address' = some offer ↔ (address' = start ↔ address = start) := by
  unfold pick at h ⊢
  by_cases h1 : address = start <;> by_cases h2 : address' = start
  · simp only [h1, h2, if_true] at h ⊢
    simpa using h
  · simp only [h1, h2, if_true, if_false] at h ⊢
    split_ifs at h
    split_ifs <;> simp [← Option.some.inj h]
  · simp only [h1, h2, if_true, if_false] at h ⊢
    split_ifs at h
    split_ifs <;> simp [← Option.some.inj h]
  · simp only [h1, h2, if_false] at h ⊢
    simpa using h

lemma lt_add_ten {env : Env} {time : UInt64} (h : time.toNat < env.stamp.toNat + 10) :
    time < env.stamp + 10 := by
  rw [UInt64.lt_iff_toNat_lt, env.toNat_stamp_add (by decide)]
  exact h

/-- **A repeated DISCOVER** is offered the same address exactly if the condition is met. -/
theorem retransmission_stable_iff (host : ByteOrder) (cfg : SubnetConfiguration)
    (env env' : Env) (d : DhcpDatagram) (leases : LeaseTable) (offer : UInt32)
    (hm : IsMessage d DHCP_TYPE_DISCOVER) (hd : Unspecific d)
    (ho : Offers (handleRecv host cfg env d leases) offer) (ht : env.stamp ≤ env'.purge)
    (ht' : env'.purge.toNat < env.stamp.toNat + 10) :
    Offers (handleRecv host cfg env' d (handleRecv host cfg env d leases).leases) offer ↔
      Settled host cfg d leases env.purge env'.purge := by
  have hlen16 : ¬ 16 < d.hwaddrLen := by
    obtain ⟨e, he, -⟩ := ho
    exact length_of_enqueued he
  have hrecv (env : Env) (leases : LeaseTable) :
      handleRecv host cfg env d leases = handleDiscovery host cfg env d leases :=
    (handleRecv_of_message hlen16 hm).trans (if_pos rfl)
  rw [hrecv env] at ho ⊢
  rw [hrecv env']
  obtain ⟨hlen, -, -⟩ := offers_discovery_iff.mp ho
  have hafter := updateLeases_of_offers ho ht (lt_add_ten ht')
  unfold Settled
  cases hf : cfg.fixedHosts.lookup (clientMac d) with
  | some reserved =>
    rw [hd.offers_iff hlen, offerAddress, if_pos rfl, hf] at ho ⊢
    exact iff_of_true ho (Or.inl (by simp))
  | none =>
    rw [hd.offers_search_iff hlen hf] at ho ⊢
    rw [hafter]
    simp only [ne_eq, not_true_eq_false, false_or]
    by_cases hlater : ∃ later, ((updateLeases env'.purge leases).erase d.hwAddr).first? =
        some later ∧ later.1 < d.hwAddr
    · -- both searches look at the lease of another client
      obtain ⟨later, hl, hlt⟩ := hlater
      have hpp : env.purge ≤ env'.purge := UInt64.le_trans env.purge_le_stamp ht
      have hlive : (updateLeases env.purge leases).find? later.1 = some later.2 :=
        find?_updateLeases_of_le hpp (OrdMap.find?_of_erase (OrdMap.first?_eq_some.mp hl).1)
      obtain ⟨first, hfirst⟩ := OrdMap.exists_first? hlive
      rw [searchRange_of_first _ _ hfirst] at ho
      rw [searchRange_of_first _ _ (OrdMap.first?_insert_of_lt _ hl hlt), pick_eq_some_iff ho]
      simp [hfirst, hl, hlt]
    · -- the second search looks at the first offer
      have hown := OrdMap.first?_insert_self (m := updateLeases env'.purge leases)
        (k := d.hwAddr) ⟨offer, env.stamp + 10⟩ fun e he hlt => hlater ⟨e, he, hlt⟩
      rw [searchRange_of_first _ _ hown]
      refine iff_of_false (pick_ne_self _ _ _) ?_
      rintro ⟨first, later, -, hl, hlt, -⟩
      exact hlater ⟨later, hl, hlt⟩

def at103 : Env := still 103 (by decide)

theorem retransmission_stable_iff_first_client :
    Offers (handleRecv .little Config.exampleConfig at103 (discover 1)
        (handleRecv .little Config.exampleConfig at100 (discover 1) .empty).leases) 0x7f000a0a ↔
      Settled .little Config.exampleConfig (discover 1) .empty at100.purge at103.purge :=
  retransmission_stable_iff .little Config.exampleConfig at100 at103 (discover 1) .empty
    0x7f000a0a (by decide +kernel) (unspecific_discover 1) (by decide +kernel) (by decide)
    (by decide)

/-- The first client of all is offered one address, and three seconds later the next. -/
theorem retransmission_moves_on :
    IsMessage (discover 1) DHCP_TYPE_DISCOVER ∧ Unspecific (discover 1) ∧
      Offers (handleRecv .little Config.exampleConfig at100 (discover 1) .empty) 0x7f000a0a ∧
      at100.stamp ≤ at103.purge ∧ at103.purge.toNat < at100.stamp.toNat + 10 ∧
      ¬ Offers (handleRecv .little Config.exampleConfig at103 (discover 1)
        (handleRecv .little Config.exampleConfig at100 (discover 1) .empty).leases) 0x7f000a0a :=
  ⟨by decide +kernel, unspecific_discover 1, by decide +kernel, by decide, by decide,
    by decide +kernel⟩

end TinyDhcpd.Search
