import TinyDhcpd.Search

/-!
How many leases there are.

The table has one entry for a client, and an entry is renewed by a DISCOVER or a REQUEST of its
client only, so the table is bounded by the clients that have been heard of lately. It is not
bounded by the range: the search for a free address looks at one lease, and a range of three
addresses is enough for any number of clients.
-/

namespace TinyDhcpd.Growth

open Bytes Daemon Search Run

variable {host : ByteOrder} {cfg : SubnetConfiguration}

/-! ### The clients that have been heard of -/

/-- A packet that can get its client a lease. -/
def Asks (ev : Event) : Prop :=
  IsMessage ev.datagram DHCP_TYPE_DISCOVER ∨ IsMessage ev.datagram DHCP_TYPE_REQUEST

instance (ev : Event) : Decidable (Asks ev) := inferInstanceAs (Decidable (_ ∨ _))

/-- The longest time a lease lasts, in seconds. -/
def term (cfg : SubnetConfiguration) : ℕ := max 10 cfg.leaseTimeSeconds.toNat

/-- The clients that have asked for a lease no longer before the time than it lasts. -/
def recent (cfg : SubnetConfiguration) (es : List Event) (time : UInt64) : Finset HwAddr :=
  ((es.filter fun ev => Asks ev ∧ time.toNat < ev.env.stamp.toNat + term cfg).map
    fun ev => ev.datagram.hwAddr).toFinset

lemma mem_recent {es : List Event} {time : UInt64} {key : HwAddr} :
    key ∈ recent cfg es time ↔ ∃ ev ∈ es, (Asks ev ∧
      time.toNat < ev.env.stamp.toNat + term cfg) ∧ ev.datagram.hwAddr = key := by
  simp [recent, and_assoc]

/-- The lease is accounted for by a packet of the client. -/
def Due (cfg : SubnetConfiguration) (past : List Event) (key : HwAddr) (lease : Lease) : Prop :=
  key = HwAddr.zero ∨ ∃ ev ∈ past, Asks ev ∧ ev.datagram.hwAddr = key ∧
    lease.expiry.toNat ≤ ev.env.stamp.toNat + term cfg

/-- Every lease is accounted for. -/
def AllDue (cfg : SubnetConfiguration) (past : List Event) (leases : LeaseTable) : Prop :=
  ∀ key lease, leases.find? key = some lease → Due cfg past key lease

lemma AllDue.mono {past past' : List Event} {leases fewer : LeaseTable}
    (h : AllDue cfg past leases) (hpast : past ⊆ past')
    (hsub : ∀ key lease, fewer.find? key = some lease → leases.find? key = some lease) :
    AllDue cfg past' fewer := by
  intro key lease hl
  rcases h key lease (hsub key lease hl) with hz | ⟨ev, hev, hdue⟩
  · exact Or.inl hz
  · exact Or.inr ⟨ev, hpast hev, hdue⟩

lemma AllDue.insert {past : List Event} {leases : LeaseTable} (h : AllDue cfg past leases)
    {key : HwAddr} {lease : Lease} (hd : Due cfg past key lease) :
    AllDue cfg past (leases.insert key lease) := by
  intro k l hl
  rw [OrdMap.find?_insert] at hl
  split_ifs at hl with hk
  · cases hl
    rwa [hk]
  · exact h k l hl

lemma find?_of_updateLeases {time : UInt64} {leases : LeaseTable} (key : HwAddr) (lease : Lease)
    (h : (updateLeases time leases).find? key = some lease) : leases.find? key = some lease :=
  (find?_updateLeases_eq_some.mp h).1

lemma allDue_step {past : List Event} {s : State} (h : AllDue cfg past s.leases) (ev : Event) :
    AllDue cfg (past ++ [ev]) (step host cfg s ev).leases := by
  have hpast : past ⊆ past ++ [ev] := List.subset_append_left _ _
  have hsame : AllDue cfg (past ++ [ev]) s.leases := h.mono hpast fun _ _ => id
  have hpurged : AllDue cfg (past ++ [ev]) (updateLeases ev.env.purge s.leases) :=
    h.mono hpast find?_of_updateLeases
  -- a new lease is accounted for by the packet it is given for
  have hterm {n : UInt64} (hn : n.toNat < 2 ^ 32) (hle : n.toNat ≤ term cfg) (hask : Asks ev)
      (address : UInt32) :
      Due cfg (past ++ [ev]) ev.datagram.hwAddr ⟨address, ev.env.stamp + n⟩ := by
    refine Or.inr ⟨ev, by simp, hask, rfl, ?_⟩
    rw [ev.env.toNat_stamp_add hn]
    omega
  have hh := handled host cfg ev.env ev.datagram s.leases
  simp only [step, handle]
  generalize handleRecv host cfg ev.env ev.datagram s.leases = o at hh ⊢
  cases hh with
  | overread _ | ignored _ | untyped _ _ | unknown _ _ => exact hsame
  | discover hm =>
    have hd := discovered host cfg ev.env ev.datagram s.leases
    generalize handleDiscovery host cfg ev.env ev.datagram s.leases = o at hd ⊢
    cases hd with
    | overflow _ => exact hsame
    | refused _ _ | exhausted _ _ _ => exact hpurged
    | offered _ _ _ _ _ =>
      exact hpurged.insert (hterm (by decide) (le_max_left _ _) (Or.inl hm) _)
  | request hm =>
    have hr := requested host cfg ev.env ev.datagram s.leases
    generalize handleRequest host cfg ev.env ev.datagram s.leases = o at hr ⊢
    cases hr with
    | malformed _ | foreign _ _ _ => exact hsame
    | refused _ _ _ _ => exact hpurged
    | granted _ _ _ _ _ =>
      refine hpurged.insert (hterm ?_ ?_ (Or.inr hm) _)
      · rw [UInt32.toNat_toUInt64]
        exact cfg.leaseTimeSeconds.toNat_lt
      · rw [UInt32.toNat_toUInt64]
        exact le_max_right _ _
  | release _ => exact h.mono hpast fun _ _ => OrdMap.find?_of_erase
  | inform _ =>
    have hi := informed host cfg ev.env ev.datagram s.leases
    generalize handleInform host cfg ev.env ev.datagram s.leases = o at hi ⊢
    cases hi <;> exact hsame
  | decline _ =>
    have hi := declined ev.datagram s.leases
    generalize handleDecline ev.datagram s.leases = o at hi ⊢
    cases hi with
    | failed _ _ => exact hsame
    | banned _ => exact hsame.insert (Or.inl rfl)

lemma allDue_run (host : ByteOrder) (cfg : SubnetConfiguration) (es : List Event) :
    AllDue cfg es (run (step host cfg) init es).leases := by
  induction es using List.reverseRecOn with
  | nil => exact fun key lease h => by cases h
  | append_singleton es ev ih =>
    rw [run_append]
    exact allDue_step ih ev

lemma length_updateLeases_le {es : List Event} {leases : LeaseTable} (h : AllDue cfg es leases)
    (time : UInt64) :
    (updateLeases time leases).entries.length ≤ (recent cfg es time).card + 1 := by
  have hsub : (updateLeases time leases).keys ⊆ insert HwAddr.zero (recent cfg es time) := by
    intro key hkey
    obtain ⟨lease, hl⟩ := OrdMap.mem_keys.mp hkey
    obtain ⟨hfind, hlive⟩ := find?_updateLeases_eq_some.mp hl
    have hlt : time.toNat < lease.expiry.toNat := UInt64.lt_iff_toNat_lt.mp hlive
    rcases h key lease hfind with rfl | ⟨ev, hev, hask, hk, hle⟩
    · exact Finset.mem_insert_self _ _
    · exact Finset.mem_insert_of_mem (mem_recent.mpr ⟨ev, hev, ⟨hask, by omega⟩, hk⟩)
  calc (updateLeases time leases).entries.length
      = (updateLeases time leases).keys.card := (OrdMap.card_keys _).symm
    _ ≤ (insert HwAddr.zero (recent cfg es time)).card := Finset.card_le_card hsub
    _ ≤ (recent cfg es time).card + 1 := Finset.card_insert_le _ _

lemma updateLeases_discover {s : State} {ev : Event} (hm : IsMessage ev.datagram DHCP_TYPE_DISCOVER)
    (hlen : ¬ 6 < ev.datagram.hwaddrLen) :
    updateLeases ev.env.purge (step host cfg s ev).leases = (step host cfg s ev).leases := by
  have h16 : ¬ 16 < ev.datagram.hwaddrLen := fun h => hlen (by grind)
  have hstep : (step host cfg s ev).leases =
      (handleDiscovery host cfg ev.env ev.datagram s.leases).leases := by
    rw [step, handle, handleRecv_of_message h16 hm, if_pos rfl]
  have hlive : ev.env.purge < ev.env.stamp + 10 := by
    have hps := UInt64.le_iff_toNat_le.mp ev.env.purge_le_stamp
    have hadd := ev.env.toNat_stamp_add (show (10 : UInt64).toNat < 2 ^ 32 by decide)
    rw [UInt64.lt_iff_toNat_lt, hadd]
    exact Nat.lt_of_le_of_lt hps (Nat.lt_add_of_pos_right (by decide))
  rw [hstep]
  have hd := discovered host cfg ev.env ev.datagram s.leases
  generalize handleDiscovery host cfg ev.env ev.datagram s.leases = o at hd ⊢
  cases hd with
  | overflow h => exact absurd h hlen
  | refused _ _ | exhausted _ _ _ => exact updateLeases_updateLeases (UInt64.le_refl _) _
  | offered _ _ _ _ _ =>
    exact (updateLeases_insert hlive _ _).trans
      (congrArg (OrdMap.insert · _ _) (updateLeases_updateLeases (UInt64.le_refl _) _))

/-- **The table is bounded by the clients.** In every run from the empty table, with packets of
any kind and clocks of any kind, no more leases are alive at a time than there are clients that
have asked for one within the longest time a lease lasts, and one for a declined address. Right
after a DISCOVER with a hardware address of at most six bytes these are all there are in the
table. -/
theorem table_bounded (host : ByteOrder) (cfg : SubnetConfiguration) (es : List Event) :
    let leases := (run (step host cfg) init es).leases
    (∀ time, (updateLeases time leases).entries.length ≤ (recent cfg es time).card + 1) ∧
      ∀ past ev, es = past ++ [ev] → IsMessage ev.datagram DHCP_TYPE_DISCOVER →
        ¬ 6 < ev.datagram.hwaddrLen →
          leases.entries.length ≤ (recent cfg es ev.env.purge).card + 1 := by
  intro leases
  have hall := length_updateLeases_le (allDue_run host cfg es)
  refine ⟨hall, fun past ev hes hm hlen => ?_⟩
  have hpurged : updateLeases ev.env.purge (run (step host cfg) init es).leases =
      (run (step host cfg) init es).leases := by
    rw [hes, run_append]
    exact updateLeases_discover hm hlen
  have hle := hall ev.env.purge
  rwa [hpurged] at hle

/-! ### Newcomers -/

/-- A DISCOVER of a client without a reservation that does not ask for an address. -/
structure Newcomer (cfg : SubnetConfiguration) (ev : Event) : Prop where
  discover : IsMessage ev.datagram DHCP_TYPE_DISCOVER
  unspecific : Unspecific ev.datagram
  length : ¬ 6 < ev.datagram.hwaddrLen
  unreserved : cfg.fixedHosts.lookup (clientMac ev.datagram) = none

/-- A range of three addresses or more. -/
def Spacious (host : ByteOrder) (cfg : SubnetConfiguration) : Prop :=
  ntohl host cfg.rangeStart < ntohl host cfg.rangeEnd ∧
    ntohl host cfg.rangeStart + 1 < ntohl host cfg.rangeEnd

instance (host : ByteOrder) (cfg : SubnetConfiguration) : Decidable (Spacious host cfg) :=
  inferInstanceAs (Decidable (_ ∧ _))

lemma exists_searchRange (h : Spacious host cfg) (leases : LeaseTable) :
    ∃ offer, searchRange (ntohl host cfg.rangeStart) (ntohl host cfg.rangeEnd)
      leases.entries = some offer := by
  rw [searchRange_entries]
  cases leases.first? with
  | none => exact ⟨_, rfl⟩
  | some first =>
    simp only [if_pos h.1, if_pos h.2]
    split_ifs <;> exact ⟨_, rfl⟩

lemma Newcomer.offered (h : Spacious host cfg) {ev : Event} (hn : Newcomer cfg ev) (s : State) :
    ∃ offer, Offers (handle host cfg s ev) offer ∧ (step host cfg s ev).leases =
      (updateLeases ev.env.purge s.leases).insert ev.datagram.hwAddr
        ⟨offer, ev.env.stamp + 10⟩ := by
  have h16 : ¬ 16 < ev.datagram.hwaddrLen := fun h => hn.length (by grind)
  have hhandle : handle host cfg s ev = handleDiscovery host cfg ev.env ev.datagram s.leases := by
    rw [handle, handleRecv_of_message h16 hn.discover, if_pos rfl]
  obtain ⟨offer, ho⟩ := exists_searchRange h (updateLeases ev.env.purge s.leases)
  have hoffers := (hn.unspecific.offers_search_iff hn.length hn.unreserved).mpr ho
  refine ⟨offer, hhandle ▸ hoffers, ?_⟩
  rw [step, hhandle]
  exact leases_of_offers hoffers

/-- The leases are those of the newcomers so far, and last. -/
structure Fills (time : ℕ) (past : List Event) (leases : LeaseTable) : Prop where
  keys : leases.keys = (past.map fun ev => ev.datagram.hwAddr).toFinset
  last : ∀ key lease, leases.find? key = some lease → time + 10 ≤ lease.expiry.toNat

lemma Fills.step {time : ℕ} {past : List Event} {s : State} (h : Fills time past s.leases)
    (hcfg : Spacious host cfg) {ev : Event} (hn : Newcomer cfg ev)
    (ht : time ≤ ev.env.stamp.toNat ∧ ev.env.purge.toNat < time + 10) :
    Fills time (past ++ [ev]) (step host cfg s ev).leases := by
  obtain ⟨offer, -, hleases⟩ := hn.offered hcfg s
  -- all offers are younger than ten seconds, so the purge finds nothing
  have hpurge : updateLeases ev.env.purge s.leases = s.leases := by
    refine OrdMap.ext_find? fun key => Option.ext fun lease => ?_
    rw [find?_updateLeases_eq_some]
    refine and_iff_left_of_imp fun hl => UInt64.lt_iff_toNat_lt.mpr ?_
    have hlast := h.last key lease hl
    omega
  rw [hleases, hpurge]
  constructor
  · ext key
    rw [OrdMap.mem_keys, OrdMap.find?_insert]
    have hkeys : (∃ lease, s.leases.find? key = some lease) ↔
        key ∈ (past.map fun ev => ev.datagram.hwAddr).toFinset := by
      rw [← h.keys, OrdMap.mem_keys]
    by_cases hk : key = ev.datagram.hwAddr
    · simp [hk]
    · rw [if_neg hk, hkeys]
      simp [hk]
  · intro key lease hl
    rw [OrdMap.find?_insert] at hl
    split_ifs at hl with hk
    · cases hl
      have hadd := ev.env.toNat_stamp_add (show (10 : UInt64).toNat < 2 ^ 32 by decide)
      rw [hadd]
      exact Nat.add_le_add_right ht.1 10
    · exact h.last key lease hl

/-- **The pool never runs dry.** If the range has three addresses or more, then of any number of
newcomers that all come within ten seconds, with different hardware addresses of at most six bytes,
every one is offered an address and gets an entry in the table: there are as many leases alive as
there are newcomers, however small the range is. -/
theorem pool_never_dry (host : ByteOrder) (cfg : SubnetConfiguration) (hcfg : Spacious host cfg)
    (time : ℕ) (es : List Event) (hes : ∀ ev ∈ es, Newcomer cfg ev)
    (htime : ∀ ev ∈ es, time ≤ ev.env.stamp.toNat ∧ ev.env.purge.toNat < time + 10)
    (hkeys : (es.map fun ev => ev.datagram.hwAddr).Nodup) :
    Meets (step host cfg) (fun s ev => ∃ offer, Offers (handle host cfg s ev) offer) init es ∧
      (run (step host cfg) init es).leases.entries.length = es.length := by
  constructor
  · refine meets_of_invariant (I := fun _ => True) (fun _ _ _ _ => trivial)
      (fun s ev _ (hn : Newcomer cfg ev) => ?_) trivial (meets_of_forall hes)
    obtain ⟨offer, ho, -⟩ := hn.offered hcfg s
    exact ⟨offer, ho⟩
  · have hfills : Fills time es (run (step host cfg) init es).leases := by
      clear hkeys
      induction es using List.reverseRecOn with
      | nil => exact ⟨rfl, fun key lease h => by cases h⟩
      | append_singleton es ev ih =>
        rw [run_append]
        exact (ih (fun x hx => hes x (by simp [hx])) fun x hx => htime x (by simp [hx])).step hcfg
          (hes ev (by simp)) (htime ev (by simp))
    rw [← OrdMap.card_keys, hfills.keys, List.toFinset_card_of_nodup hkeys, List.length_map]

def narrow : SubnetConfiguration := { Config.exampleConfig with rangeEnd := 0x0c0a007f }

def newcomers : List Event :=
  [1, 2, 3, 4, 5].map fun n => ⟨at100, message DHCP_TYPE_DISCOVER (client n) none⟩

theorem pool_never_dry_narrow :
    (ntohl .little narrow.rangeEnd - ntohl .little narrow.rangeStart = 2 ∧ newcomers.length = 5) ∧
      (run (step .little narrow) init newcomers).leases.entries.length = newcomers.length := by
  have hes : ∀ ev ∈ newcomers, Newcomer narrow ev := by
    intro ev hev
    simp only [newcomers, List.map_cons, List.map_nil, List.mem_cons, List.not_mem_nil,
      or_false] at hev
    rcases hev with rfl | rfl | rfl | rfl | rfl <;>
      exact ⟨by decide +kernel, ⟨by decide +kernel, by decide +kernel⟩, by decide +kernel,
        by decide +kernel⟩
  refine ⟨by decide +kernel, (pool_never_dry .little narrow (by decide +kernel) 100 newcomers hes
    ?_ (by decide +kernel)).2⟩
  decide +kernel

end TinyDhcpd.Growth
