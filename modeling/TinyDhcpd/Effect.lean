import TinyDhcpd.Transmit

/-!
Which packets have an effect, and what they look like on the wire.

A packet is checked in three places: the decoder compares the magic cookie, `handle_recv`
tests the opcode and switches over the message type. The decoder only logs that it has seen
a wrong cookie and goes on.
-/

namespace TinyDhcpd.Effect

open Bytes OptionTag DhcpDatagram Daemon OptionArea Receive Transmit

/-- Nothing has happened to the table but that expired entries are gone. -/
def OnlyExpired (time : UInt64) (old new : LeaseTable) : Prop :=
  ∀ key, new.find? key = old.find? key ∨
    new.find? key = none ∧ ∃ lease, old.find? key = some lease ∧ lease.expiry ≤ time

/-- A reply is enqueued, or the table changes by more than what has expired. -/
def Effective (env : Env) (leases : LeaseTable) (o : Outcome) : Prop :=
  o.enqueued ≠ [] ∨ ¬ OnlyExpired env.purge leases o.leases

/-- The magic cookie is where it belongs. -/
def HasCookie (data : RawData) : Prop :=
  (data.bytes.drop 236).take 4 = toByteArray DHCP_MAGIC_COOKIE.toBitVec

instance (data : RawData) : Decidable (HasCookie data) := inferInstanceAs (Decidable (_ = _))

/-- A DHCP request: the opcode, the magic cookie and one of the message types that clients
send. -/
structure Genuine (data : RawData) : Prop where
  opcode : data.bytes.getD 0 0 = 1
  cookie : HasCookie data
  type : ∃ m, parseOptions (data.bytes.drop 240) = .ok m ∧
    ∃ t ∈ servedTypes, m.lookup DHCP_MESSAGE_TYPE = some [t]

/-- The datagram `handle_recv` gets to see: a missing server address and the interface are
filled in. -/
def delivered (serverIp : UInt32) (iface : UInt32 × String) (d : DhcpDatagram) : DhcpDatagram :=
  { d with
    serverIp := if d.serverIp = 0 then serverIp else d.serverIp
    recvAddr := iface.1
    recvIface := iface.2 }

/-- The condition under which a packet has an effect: a DISCOVER that gets an offer, a REQUEST,
an INFORM that can be answered, a RELEASE of a lease that has not expired, and a DECLINE that
is not already recorded. -/
inductive Acts (host : ByteOrder) (cfg : SubnetConfiguration) (env : Env) (d : DhcpDatagram)
    (leases : LeaseTable) : Prop
  | offer (h : GetsOffer host cfg env d leases)
  | request (hm : IsMessage d DHCP_TYPE_REQUEST) (hlen : ¬ 16 < d.hwaddrLen)
  | inform (h : GetsParameters d)
  | release (hm : IsMessage d DHCP_TYPE_RELEASE) (hlen : ¬ 16 < d.hwaddrLen) {lease : Lease}
    (hl : leases.find? d.hwAddr = some lease) (he : env.purge < lease.expiry)
  | decline (hm : IsMessage d DHCP_TYPE_DECLINE) (hlen : ¬ 16 < d.hwaddrLen) {address : UInt32}
    (hr : requestedIp d = some address)
    (hne : leases.find? HwAddr.zero ≠ some ⟨address, UINT64_MAX⟩)

variable {host : ByteOrder} {cfg : SubnetConfiguration} {env : Env} {d : DhcpDatagram}
  {leases : LeaseTable}

lemma onlyExpired_refl (time : UInt64) (leases : LeaseTable) : OnlyExpired time leases leases :=
  fun _ => Or.inl rfl

lemma onlyExpired_updateLeases (time : UInt64) (leases : LeaseTable) :
    OnlyExpired time leases (updateLeases time leases) := by
  intro key
  rw [find?_updateLeases]
  cases leases.find? key with
  | none => exact Or.inl rfl
  | some lease =>
    by_cases he : lease.expiry ≤ time
    · exact Or.inr ⟨by simp [he], lease, rfl, he⟩
    · exact Or.inl (by rw [Option.filter_some, if_pos (by simpa using he)])

lemma not_onlyExpired_erase_iff (time : UInt64) {key : HwAddr} :
    ¬ OnlyExpired time leases (leases.erase key) ↔
      ∃ lease, leases.find? key = some lease ∧ time < lease.expiry := by
  have hself : (leases.erase key).find? key = none := by rw [OrdMap.find?_erase, if_pos rfl]
  constructor
  · intro h
    by_contra hn
    refine h fun k => ?_
    by_cases hk : k = key
    · subst hk
      cases hf : leases.find? k with
      | none => exact Or.inl hself
      | some lease =>
        refine Or.inr ⟨hself, lease, rfl, UInt64.not_lt.mp fun hlt => hn ⟨lease, hf, hlt⟩⟩
    · exact Or.inl (by rw [OrdMap.find?_erase, if_neg hk])
  · rintro ⟨lease, hf, hlt⟩ h
    rcases h key with heq | ⟨-, l, hl, hle⟩
    · rw [hself, hf] at heq
      cases heq
    · rw [hf, Option.some.injEq] at hl
      exact UInt64.not_lt.mpr hle (hl ▸ hlt)

lemma not_onlyExpired_insert_iff (time : UInt64) {key : HwAddr} {lease : Lease} :
    ¬ OnlyExpired time leases (leases.insert key lease) ↔ leases.find? key ≠ some lease := by
  rw [not_iff_not]
  constructor
  · intro h
    rcases h key with heq | ⟨hnone, -⟩
    · rw [← heq, OrdMap.find?_insert_self]
    · rw [OrdMap.find?_insert_self] at hnone
      cases hnone
  · intro hf k
    by_cases hk : k = key
    · exact Or.inl (by rw [hk, OrdMap.find?_insert_self, hf])
    · exact Or.inl (OrdMap.find?_insert_of_ne _ _ hk)

/-! ### The handlers -/

lemma not_effective_of_onlyExpired {o : Outcome} (hq : o.enqueued = [])
    (h : OnlyExpired env.purge leases o.leases) : ¬ Effective env leases o := by
  rintro (hc | hc)
  · exact hc hq
  · exact hc h

lemma not_effective_of_same {o : Outcome} (hq : o.enqueued = []) (hl : o.leases = leases) :
    ¬ Effective env leases o :=
  not_effective_of_onlyExpired hq (hl ▸ onlyExpired_refl _ _)

lemma effective_discovery_iff (hm : IsMessage d DHCP_TYPE_DISCOVER) :
    Effective env leases (handleDiscovery host cfg env d leases) ↔
      GetsOffer host cfg env d leases := by
  have hoffers := enqueued_discovery host cfg env leases hm
  have h := discovered host cfg env d leases
  generalize handleDiscovery host cfg env d leases = o at h hoffers ⊢
  rcases hoffers with ⟨⟨e, he⟩, ho⟩ | ⟨hnil, hn⟩
  · exact iff_of_true (Or.inl (by rw [he]; simp)) ho
  · refine iff_of_false (not_effective_of_onlyExpired hnil ?_) hn
    cases h with
    | overflow hlen => exact onlyExpired_refl _ _
    | refused hlen ha => exact onlyExpired_updateLeases _ _
    | exhausted hlen ha ho => exact onlyExpired_updateLeases _ _
    | offered hlen ha ho dest options => cases hnil

lemma effective_request (hl : LegalLengths d.options) :
    Effective env leases (handleRequest host cfg env d leases) := by
  have h := requested host cfg env d leases
  generalize handleRequest host cfg env d leases = o at h ⊢
  cases h with
  | malformed hr =>
    obtain ⟨address, ha⟩ := requestedAddress_of_legalLengths hl
    rw [ha] at hr
    cases hr
  | foreign hr hs dest => exact Or.inl (List.cons_ne_nil _ _)
  | refused hr hs hl dest => exact Or.inl (List.cons_ne_nil _ _)
  | granted hr hs hl hla dest => exact Or.inl (List.cons_ne_nil _ _)

lemma effective_inform_iff (hm : IsMessage d DHCP_TYPE_INFORM) (hlen : ¬ 16 < d.hwaddrLen) :
    Effective env leases (handleInform host cfg env d leases) ↔ GetsParameters d := by
  have hinforms := enqueued_inform host cfg env leases hm hlen
  have h := informed host cfg env d leases
  generalize handleInform host cfg env d leases = o at h hinforms ⊢
  rcases hinforms with ⟨⟨dest, he⟩, hi⟩ | ⟨hnil, hn⟩
  · exact iff_of_true (Or.inl (by rw [he]; simp)) hi
  · refine iff_of_false (not_effective_of_onlyExpired hnil ?_) hn
    cases h with
    | overflow h => exact onlyExpired_refl _ _
    | replied h => exact onlyExpired_refl _ _

lemma effective_release_iff :
    Effective env leases (handleRelease d leases) ↔
      ∃ lease, leases.find? d.hwAddr = some lease ∧ env.purge < lease.expiry := by
  rw [← not_onlyExpired_erase_iff env.purge]
  exact or_iff_right (not_not.mpr rfl)

lemma effective_decline_iff :
    Effective env leases (handleDecline d leases) ↔ ∃ address, requestedIp d = some address ∧
      leases.find? HwAddr.zero ≠ some ⟨address, UINT64_MAX⟩ := by
  have h := declined d leases
  generalize handleDecline d leases = o at h ⊢
  cases h with
  | failed hr hf =>
    refine iff_of_false (not_effective_of_same rfl rfl) ?_
    simp [hr]
  | @banned address hr =>
    simp only [hr, Option.some.injEq, exists_eq_left']
    rw [← not_onlyExpired_insert_iff env.purge]
    exact or_iff_right (not_not.mpr rfl)

/-! ### The packet -/

lemma Acts.message (h : Acts host cfg env d leases) :
    ¬ 16 < d.hwaddrLen ∧ ∃ t ∈ servedTypes, IsMessage d t := by
  cases h with
  | offer h => exact ⟨Fills.length (Or.inl h), _, by decide, h.message⟩
  | request hm hlen => exact ⟨hlen, _, by decide, hm⟩
  | inform h => exact ⟨h.length, _, by decide, h.message⟩
  | release hm hlen hl he => exact ⟨hlen, _, by decide, hm⟩
  | decline hm hlen hr hne => exact ⟨hlen, _, by decide, hm⟩

/-- **The packets that have an effect.** -/
theorem effective_handleRecv_iff (hl : LegalLengths d.options) :
    Effective env leases (handleRecv host cfg env d leases) ↔ Acts host cfg env d leases := by
  constructor
  · intro h
    by_cases hlen : 16 < d.hwaddrLen
    · rw [handleRecv, if_pos hlen] at h
      exact absurd h (not_effective_of_same rfl rfl)
    have hd := handled host cfg env d leases
    generalize handleRecv host cfg env d leases = o at hd h
    cases hd with
    | overread hc => exact absurd hc hlen
    | ignored hop => exact absurd h (not_effective_of_same rfl rfl)
    | untyped hop hn => exact absurd h (not_effective_of_same rfl rfl)
    | unknown hm hu => exact absurd h (not_effective_of_same rfl rfl)
    | discover hm => exact .offer ((effective_discovery_iff hm).mp h)
    | request hm => exact .request hm hlen
    | release hm =>
      obtain ⟨lease, hf, he⟩ := effective_release_iff.mp h
      exact .release hm hlen hf he
    | inform hm => exact .inform ((effective_inform_iff hm hlen).mp h)
    | decline hm =>
      obtain ⟨address, hr, hne⟩ := effective_decline_iff.mp h
      exact .decline hm hlen hr hne
  · intro h
    obtain ⟨hlen, -⟩ := h.message
    cases h with
    | offer h =>
      rw [handleRecv_of_message hlen h.message]
      exact (effective_discovery_iff h.message).mpr h
    | request hm _ =>
      rw [handleRecv_of_message hlen hm]
      exact effective_request hl
    | inform h =>
      rw [handleRecv_of_message hlen h.message]
      exact (effective_inform_iff h.message hlen).mpr h
    | release hm _ hf he =>
      rw [handleRecv_of_message hlen hm]
      exact effective_release_iff.mpr ⟨_, hf, he⟩
    | decline hm _ hr hne =>
      rw [handleRecv_of_message hlen hm]
      exact effective_decline_iff.mpr ⟨_, hr, hne⟩

lemma receive_cases (host : ByteOrder) (cfg : SubnetConfiguration) (serverIp : UInt32)
    (uninit : DhcpDatagram) (env : Env) (data : RawData)
    (iface : Except Fault (UInt32 × String)) (leases : LeaseTable) :
    (∃ fault, receive host cfg serverIp uninit env data iface leases = .throw fault leases) ∨
      ∃ d info, fromBuffer host uninit data.bytes = .ok d ∧
        receive host cfg serverIp uninit env data iface leases =
          handleRecv host cfg env (delivered serverIp info d) leases := by
  unfold receive
  cases fromBuffer host uninit data.bytes with
  | error fault => exact Or.inl ⟨fault, rfl⟩
  | ok d =>
    cases iface with
    | error fault => exact Or.inl ⟨fault, rfl⟩
    | ok info => exact Or.inr ⟨d, info, rfl, rfl⟩

lemma effective_caught_iff (env : Env) (leases : LeaseTable) (o : Outcome) :
    Effective env leases (caught o) ↔ Effective env leases o := by
  unfold caught
  split <;> rfl

lemma effective_handleEpollin_iff (serverIp : UInt32) {uninit : DhcpDatagram} {data : RawData}
    (hd : fromBuffer host uninit data.bytes = .ok d) (iface : Except Fault (UInt32 × String)) :
    Effective env leases
        (handleEpollin host cfg serverIp uninit env (.packet data iface) leases).1 ↔
      ∃ info, iface = .ok info ∧ Acts host cfg env (delivered serverIp info d) leases := by
  obtain ⟨-, hp, -⟩ := of_fromBuffer_eq_ok hd
  rw [handleEpollin, effective_caught_iff, receive, hd]
  cases iface with
  | error fault =>
    refine iff_of_false (not_effective_of_same rfl rfl) ?_
    simp
  | ok info =>
    simp only [Except.ok.injEq, exists_eq_left']
    exact effective_handleRecv_iff (d := delivered serverIp info d)
      (legalLengths_of_parseOptions hp)

lemma genuine_of_acts {serverIp : UInt32} {uninit : DhcpDatagram} {data : RawData}
    {info : UInt32 × String} (hd : fromBuffer host uninit data.bytes = .ok d)
    (h : Acts host cfg env (delivered serverIp info d) leases) (hc : HasCookie data) :
    Genuine data := by
  obtain ⟨-, hp, hop, -⟩ := of_fromBuffer_eq_ok hd
  obtain ⟨-, t, ht, hm⟩ := h.message
  obtain ⟨hone, rest, htype⟩ := hm
  have hl : (t :: rest).length = 1 := legalLengths_of_parseOptions hp _ _ htype 1 (by decide)
  obtain rfl : rest = [] := List.length_eq_zero_iff.mp (Nat.succ.inj hl)
  exact ⟨hop.symm.trans hone, hc, d.options, hp, t, ht, htype⟩

/-- **Only DHCP requests have effects** exactly if the packet has the magic cookie or would have
no effect with it either. -/
theorem effects_genuine_iff (host : ByteOrder) (cfg : SubnetConfiguration) (serverIp : UInt32)
    (uninit : DhcpDatagram) (env : Env) (data : RawData)
    (iface : Except Fault (UInt32 × String)) (leases : LeaseTable) (d : DhcpDatagram)
    (hd : fromBuffer host uninit data.bytes = .ok d) :
    (Effective env leases
        (handleEpollin host cfg serverIp uninit env (.packet data iface) leases).1 →
      Genuine data) ↔
      HasCookie data ∨
        ∀ info, iface = .ok info → ¬ Acts host cfg env (delivered serverIp info d) leases := by
  rw [effective_handleEpollin_iff serverIp hd]
  constructor
  · intro h
    by_cases hc : HasCookie data
    · exact Or.inl hc
    · exact Or.inr fun info hi ha => hc (h ⟨info, hi, ha⟩).cookie
  · rintro (hc | hn) ⟨info, hi, ha⟩
    · exact genuine_of_acts hd ha hc
    · exact absurd ha (hn info hi)

/-- An INFORM in a packet of zeros, where the magic cookie should be too. -/
def cookieless : RawData :=
  ⟨[1, 1, 6, 0] ++ List.replicate 236 0 ++ [DHCP_MESSAGE_TYPE, 1, DHCP_TYPE_INFORM, OPTIONS_END] ++
    List.replicate 332 0, by decide +kernel⟩

/-- What is decoded from it. -/
def informingZero : DhcpDatagram :=
  { message DHCP_TYPE_INFORM .zero none with hwaddrType := 1 }

lemma fromBuffer_cookieless : fromBuffer .little blank cookieless.bytes = .ok informingZero := by
  decide +kernel

theorem effects_genuine_iff_cookieless :
    (Effective at100 .empty (handleEpollin .little Config.exampleConfig 0 blank at100
        (.packet cookieless (.ok (0x7f000a01, "eth0"))) .empty).1 → Genuine cookieless) ↔
      HasCookie cookieless ∨ ∀ info,
        (.ok (0x7f000a01, "eth0") : Except Fault (UInt32 × String)) = .ok info →
          ¬ Acts .little Config.exampleConfig at100 (delivered 0 info informingZero) .empty :=
  effects_genuine_iff .little Config.exampleConfig 0 blank at100 cookieless
    (.ok (0x7f000a01, "eth0")) .empty informingZero fromBuffer_cookieless

/-- It is answered all the same. -/
theorem cookieless_is_answered :
    fromBuffer .little blank cookieless.bytes = .ok informingZero ∧
      ¬ (Effective at100 .empty (handleEpollin .little Config.exampleConfig 0 blank at100
          (.packet cookieless (.ok (0x7f000a01, "eth0"))) .empty).1 → Genuine cookieless) := by
  refine ⟨fromBuffer_cookieless, fun h => ?_⟩
  have hreply : (handleEpollin .little Config.exampleConfig 0 blank at100
      (.packet cookieless (.ok (0x7f000a01, "eth0"))) .empty).1.enqueued ≠ [] := by
    decide +kernel
  have hc : ¬ HasCookie cookieless := by decide +kernel
  exact hc (h (Or.inl hreply)).cookie

end TinyDhcpd.Effect
