import TinyDhcpd.Answer
import TinyDhcpd.Decline
import TinyDhcpd.Faults

/-!
The terms of a lease: the parameters and the time that OFFER and ACK promise.

The lease time comes into a reply on three ways: a client that has a lease is told what remains
of it, the parameter request list can ask for it, and whatever is still missing is filled in
from the configuration.
-/

namespace TinyDhcpd.Terms

open Bytes OptionTag Daemon Answer Run

variable {host : ByteOrder} {cfg : SubnetConfiguration} {env : Env} {d : DhcpDatagram}
  {leases : LeaseTable} {m : Options}

/-! ### Parameters -/

/-- The options that a reply of a type promises: the type itself, the address of the server, the
configured lease time, and what is configured of the options the client asks for. -/
def promised (cfg : SubnetConfiguration) (d : DhcpDatagram) (type : UInt8) (tag : OptionTag) :
    Option (List UInt8) :=
  if tag = DHCP_MESSAGE_TYPE then some [type]
  else if tag = SERVER_IDENTIFIER then some (toByteArray d.recvAddr.toBitVec)
  else if tag = LEASE_TIME then some (toByteArray cfg.leaseTimeSeconds.toBitVec)
  else if tag ∈ requestList d then cfg.definedOptions.lookup tag
  else none

lemma leaseTime_setLeaseTime (h : ∀ value, m.lookup LEASE_TIME = some value →
      value = toByteArray cfg.leaseTimeSeconds.toBitVec) :
    (setLeaseTime cfg m).lookup LEASE_TIME = some (toByteArray cfg.leaseTimeSeconds.toBitVec) := by
  unfold setLeaseTime
  split_ifs with hmem
  · obtain ⟨value, hv⟩ := Finmap.mem_iff.mp hmem
    rw [hv, h value hv]
  · exact Finmap.lookup_insert _

lemma promised_of_ne (type : UInt8) {tag : OptionTag} (h53 : tag ≠ DHCP_MESSAGE_TYPE)
    (h54 : tag ≠ SERVER_IDENTIFIER) (h51 : tag ≠ LEASE_TIME) :
    promised cfg d type tag =
      if tag ∈ requestList d then cfg.definedOptions.lookup tag else none := by
  rw [promised, if_neg h53, if_neg h54, if_neg h51]

lemma lookup_setLeaseTime_eq_promised (hcfg : Config.Validated host cfg) {type : UInt8}
    (h53 : m.lookup DHCP_MESSAGE_TYPE = some [type])
    (h54 : m.lookup SERVER_IDENTIFIER = some (toByteArray d.recvAddr.toBitVec))
    (hrest : ∀ tag, tag ≠ DHCP_MESSAGE_TYPE → tag ≠ SERVER_IDENTIFIER →
      m.lookup tag = if tag ∈ requestList d then cfg.definedOptions.lookup tag else none)
    (tag : OptionTag) : (setLeaseTime cfg m).lookup tag = promised cfg d type tag := by
  by_cases hl : tag = LEASE_TIME
  · subst hl
    -- asked for or not, it is the configured one
    refine leaseTime_setLeaseTime fun value hv => ?_
    rw [hrest LEASE_TIME (by decide) (by decide), hcfg.leaseTime] at hv
    split_ifs at hv
    exact (Option.some.inj hv).symm
  rw [lookup_setLeaseTime hl]
  by_cases ht : tag = DHCP_MESSAGE_TYPE
  · rw [ht, h53, promised, if_pos rfl]
  by_cases hs : tag = SERVER_IDENTIFIER
  · rw [hs, h54, promised, if_neg (by decide), if_pos rfl]
  · rw [hrest tag ht hs, promised_of_ne type ht hs hl]

lemma lookup_ackOptions (hcfg : Config.Validated host cfg) (tag : OptionTag) :
    (ackOptions cfg d).lookup tag = promised cfg d DHCP_TYPE_ACK tag := by
  refine lookup_setLeaseTime_eq_promised hcfg ?_ (Finmap.lookup_insert _) (fun tag ht hs => ?_) tag
  · rw [Finmap.lookup_insert_of_ne _ (by decide), lookup_setRequestedOptions, Finmap.lookup_insert,
      Option.some_or]
  · rw [Finmap.lookup_insert_of_ne _ hs, lookup_setRequestedOptions,
      Finmap.lookup_insert_of_ne _ ht, Finmap.lookup_empty, Option.none_or]

lemma lookup_offerOptions (hcfg : Config.Validated host cfg) (tag : OptionTag) :
    (offerOptions cfg d ∅).lookup tag = promised cfg d DHCP_TYPE_OFFER tag := by
  refine lookup_setLeaseTime_eq_promised hcfg ?_ ?_ (fun tag ht hs => ?_) tag
  · rw [lookup_setRequestedOptions, Finmap.lookup_insert_of_ne _ (by decide), Finmap.lookup_insert,
      Option.some_or]
  · rw [lookup_setRequestedOptions, Finmap.lookup_insert, Option.some_or]
  · rw [lookup_setRequestedOptions, Finmap.lookup_insert_of_ne _ hs,
      Finmap.lookup_insert_of_ne _ ht, Finmap.lookup_empty, Option.none_or]

lemma wantedAddress_options {wanted : UInt32} (hc : d.clientIp = INADDR_ANY)
    (h : wantedAddress host cfg env d leases = .ok (wanted, m)) : m = ∅ := by
  unfold wantedAddress at h
  split at h
  · obtain ⟨n, -, h⟩ := Config.bind_eq_ok.mp h
    dsimp only at h
    split_ifs at h
    · exact (Prod.mk.inj (Except.ok.inj h)).2.symm
    · exact (Prod.mk.inj (Except.ok.inj h)).2.symm
  · rw [if_neg (not_not.mpr hc)] at h
    exact (Prod.mk.inj (Except.ok.inj h)).2.symm

/-- The options of the reply are those that are promised. -/
def Promises (cfg : SubnetConfiguration) (d reply : DhcpDatagram) (type : UInt8) : Prop :=
  ∀ tag, reply.options.lookup tag = promised cfg d type tag

/-- The lease of the client ends when the lease time of the reply is over. -/
def Recorded (env : Env) (d reply : DhcpDatagram) (left : LeaseTable) : Prop :=
  ∃ lease bytes, left.find? d.hwAddr = some lease ∧ reply.options.lookup LEASE_TIME = some bytes ∧
    lease.expiry.toNat = env.stamp.toNat + (readNumber 32 bytes).toNat

lemma promises_ack (hcfg : Config.Accepted host cfg) {e : SockaddrIn × DhcpDatagram}
    (he : e ∈ (handleRecv host cfg env d leases).enqueued) (hty : HasType e.2 DHCP_TYPE_ACK) :
    Promises cfg d e.2 DHCP_TYPE_ACK ∧
      Recorded env d e.2 (handleRecv host cfg env d leases).leases := by
  have h := replied he
  generalize (handleRecv host cfg env d leases).leases = left at h ⊢
  obtain ⟨dest, reply⟩ := e
  dsimp only at h hty ⊢
  cases h with
  | offer hm hlen hw ho hd => exact absurd hty ((hasType_offerReply _ _).not_of_ne (by decide))
  | nak hm hd => exact absurd hty (hasType_nak.not_of_ne (by decide))
  | ack hm hl hr hs hd =>
    refine ⟨lookup_ackOptions hcfg.validated, _, _, OrdMap.find?_insert_self _ _ _,
      lookup_ackOptions hcfg.validated LEASE_TIME, ?_⟩
    have htime : (cfg.leaseTimeSeconds.toUInt64).toNat = cfg.leaseTimeSeconds.toNat := by simp
    have hlt := cfg.leaseTimeSeconds.toNat_lt
    rw [env.toNat_stamp_add (by omega), readNumber_toByteArray (by norm_num), htime]
    rfl
  | inform hm hd =>
    have hopt := Config.Served.messageType_notMem (Or.inr hcfg)
    exact absurd hty (not_hasType_informReply hopt _)

lemma promises_offer (hcfg : Config.Accepted host cfg) {e : SockaddrIn × DhcpDatagram}
    (he : e ∈ (handleRecv host cfg env d leases).enqueued) (hm : IsMessage d DHCP_TYPE_DISCOVER)
    (hc : d.clientIp = INADDR_ANY) : Promises cfg d e.2 DHCP_TYPE_OFFER := by
  have h := replied he
  generalize (handleRecv host cfg env d leases).leases = left at h
  obtain ⟨dest, reply⟩ := e
  dsimp only at h ⊢
  cases h with
  | offer hm' hlen hw ho hd =>
    obtain rfl := wantedAddress_options hc hw
    exact lookup_offerOptions hcfg.validated
  | nak hm' hd => exact absurd hm' (hm.not_of_ne (by decide))
  | ack hm' hl hr hs hd => exact absurd hm' (hm.not_of_ne (by decide))
  | inform hm' hd => exact absurd hm' (hm.not_of_ne (by decide))

/-- Packets that ask for the same parameters, in any order and any number of times, on the same
interface. -/
def AsksSame (d d' : DhcpDatagram) : Prop :=
  d.recvAddr = d'.recvAddr ∧ ∀ tag, tag ∈ requestList d ↔ tag ∈ requestList d'

lemma promised_congr {d' : DhcpDatagram} (h : AsksSame d d') (type : UInt8) (tag : OptionTag) :
    promised cfg d type tag = promised cfg d' type tag := by
  unfold promised
  rw [h.1, if_congr (h.2 tag) rfl rfl]

lemma promised_retype (type type' : UInt8) {tag : OptionTag} (ht : tag ≠ DHCP_MESSAGE_TYPE) :
    promised cfg d type tag = promised cfg d type' tag := by
  unfold promised
  rw [if_neg ht, if_neg ht]

lemma Promises.options_eq {d' reply reply' : DhcpDatagram} {type : UInt8}
    (h : Promises cfg d reply type) (h' : Promises cfg d' reply' type) (hs : AsksSame d d') :
    reply.options = reply'.options :=
  Finmap.ext_lookup fun tag => by rw [h tag, h' tag, promised_congr hs]

lemma Promises.options_retype {d' reply reply' : DhcpDatagram} {type type' : UInt8}
    (h : Promises cfg d reply type) (h' : Promises cfg d' reply' type') (hs : AsksSame d d') :
    reply'.options = reply.options.insert DHCP_MESSAGE_TYPE [type'] := by
  refine Finmap.ext_lookup fun tag => ?_
  by_cases ht : tag = DHCP_MESSAGE_TYPE
  · rw [ht, Finmap.lookup_insert, h' DHCP_MESSAGE_TYPE, promised, if_pos rfl]
  · rw [Finmap.lookup_insert_of_ne _ ht, h tag, h' tag, promised_congr hs type tag,
      promised_retype type type' ht]

/-- **OFFER and ACK promise the same**, and what an ACK promises is recorded. The replies to two
packets that ask for the same parameters have the same options, but for the message type. -/
theorem promises_agree (host : ByteOrder) (cfg : SubnetConfiguration)
    (hcfg : Config.Accepted host cfg) (env env' : Env) (d d' : DhcpDatagram)
    (leases leases' : LeaseTable) (e e' : SockaddrIn × DhcpDatagram)
    (he : e ∈ (handleRecv host cfg env d leases).enqueued)
    (he' : e' ∈ (handleRecv host cfg env' d' leases').enqueued) (hs : AsksSame d d') :
    (HasType e.2 DHCP_TYPE_ACK → Promises cfg d e.2 DHCP_TYPE_ACK ∧
      Recorded env d e.2 (handleRecv host cfg env d leases).leases) ∧
    (IsMessage d DHCP_TYPE_DISCOVER → d.clientIp = INADDR_ANY →
      Promises cfg d e.2 DHCP_TYPE_OFFER) ∧
    (HasType e.2 DHCP_TYPE_ACK → HasType e'.2 DHCP_TYPE_ACK → e'.2.options = e.2.options) ∧
    (HasType e.2 DHCP_TYPE_ACK → IsMessage d' DHCP_TYPE_DISCOVER → d'.clientIp = INADDR_ANY →
      e'.2.options = e.2.options.insert DHCP_MESSAGE_TYPE [DHCP_TYPE_OFFER]) ∧
    (IsMessage d DHCP_TYPE_DISCOVER → d.clientIp = INADDR_ANY →
      IsMessage d' DHCP_TYPE_DISCOVER → d'.clientIp = INADDR_ANY →
        e'.2.options = e.2.options) := by
  refine ⟨promises_ack hcfg he, promises_offer hcfg he, fun hty hty' => ?_, fun hty hm' hc' => ?_,
    fun hm hc hm' hc' => ?_⟩
  · exact ((promises_ack hcfg he hty).1.options_eq (promises_ack hcfg he' hty').1 hs).symm
  · exact (promises_ack hcfg he hty).1.options_retype (promises_offer hcfg he' hm' hc') hs
  · exact ((promises_offer hcfg he hm hc).options_eq (promises_offer hcfg he' hm' hc') hs).symm

/-- A DISCOVER, and the table it leaves: its offer is recorded. -/
def discovering : DhcpDatagram := message DHCP_TYPE_DISCOVER (client 1) none

def offered : LeaseTable :=
  (handleRecv .little Config.exampleConfig at100 discovering .empty).leases

def requesting : DhcpDatagram := message DHCP_TYPE_REQUEST (client 1) (some 0x7f000a0a)

theorem promises_agree_dora :
    ∃ e ∈ (handleRecv .little Config.exampleConfig at100 requesting offered).enqueued,
      ∃ e' ∈ (handleRecv .little Config.exampleConfig at100 discovering .empty).enqueued,
        HasType e.2 DHCP_TYPE_ACK ∧ Promises Config.exampleConfig requesting e.2 DHCP_TYPE_ACK ∧
          e'.2.options = e.2.options.insert DHCP_MESSAGE_TYPE [DHCP_TYPE_OFFER] := by
  have hack : ∃ e ∈ (handleRecv .little Config.exampleConfig at100 requesting offered).enqueued,
      HasType e.2 DHCP_TYPE_ACK := by decide +kernel
  have hoffer : (handleRecv .little Config.exampleConfig at100 discovering .empty).enqueued ≠
      [] := by decide +kernel
  have hs : AsksSame requesting discovering := ⟨rfl, fun tag => Iff.rfl⟩
  obtain ⟨e, he, hty⟩ := hack
  obtain ⟨e', he'⟩ := List.exists_mem_of_ne_nil _ hoffer
  have h := promises_agree .little Config.exampleConfig Config.accepted_exampleConfig at100 at100
    requesting discovering offered .empty e e' he he' hs
  exact ⟨e, he, e', he', hty, (h.1 hty).1, h.2.2.2.1 hty (by decide) rfl⟩

/-! ### The remaining lease time -/

/-- A DISCOVER of a client that has an address and does not ask for another. -/
def Renews (d : DhcpDatagram) : Prop :=
  IsMessage d DHCP_TYPE_DISCOVER ∧ d.options.lookup REQUESTED_IP_ADDRESS = none ∧
    d.clientIp ≠ INADDR_ANY

/-- A client that renews a lease is offered the time that remains: neither the subtraction wraps
around nor is anything lost when its result is cut to 32 bits. -/
def RemainingExact (host : ByteOrder) (cfg : SubnetConfiguration) (s : State) (ev : Event) :
    Prop :=
  Renews ev.datagram → ∀ lease,
    (updateLeases ev.env.purge s.leases).find? ev.datagram.hwAddr = some lease →
      ∃ e bytes, (handle host cfg s ev).enqueued = [e] ∧ HasType e.2 DHCP_TYPE_OFFER ∧
        e.2.options.lookup LEASE_TIME = some bytes ∧ bytes.length = 4 ∧
        (readNumber 32 bytes).toNat = lease.expiry.toNat - ev.env.now.toNat ∧
        (lease.expiry - ev.env.now).toNat = lease.expiry.toNat - ev.env.now.toNat ∧
        (lease.expiry - ev.env.now).toUInt32.toNat = (lease.expiry - ev.env.now).toNat

/-- The condition on the state and the clock: the lease has not run out when the clock is read
again after the purge, and it is not the entry of a declined address, which never expires. -/
def StillRuns (s : State) (ev : Event) : Prop :=
  Renews ev.datagram → ∀ lease,
    (updateLeases ev.env.purge s.leases).find? ev.datagram.hwAddr = some lease →
      ev.env.now ≤ lease.expiry ∧ lease.expiry ≠ UINT64_MAX

/-- Every lease ends within the longest lease time, or never. -/
def Bounded (clock : UInt64) (leases : LeaseTable) : Prop :=
  ∀ key lease, leases.find? key = some lease →
    lease.expiry = UINT64_MAX ∨ lease.expiry.toNat < clock.toNat + 2 ^ 32

variable {clock clock' : UInt64}

lemma bounded_empty (clock : UInt64) : Bounded clock .empty := fun key lease h => by simp at h

lemma Bounded.later (h : Bounded clock leases) (ht : clock ≤ clock') : Bounded clock' leases := by
  intro key lease hl
  have hle := UInt64.le_iff_toNat_le.mp ht
  rcases h key lease hl with hmax | hlt
  · exact Or.inl hmax
  · exact Or.inr (by omega)

lemma Bounded.updateLeases (h : Bounded clock leases) (purge : UInt64) :
    Bounded clock (updateLeases purge leases) :=
  fun key lease hl => h key lease (find?_updateLeases_eq_some.mp hl).1

lemma Bounded.erase (h : Bounded clock leases) (key : HwAddr) : Bounded clock (leases.erase key) :=
  fun k lease hl => h k lease (OrdMap.find?_of_erase hl)

lemma Bounded.insert (h : Bounded clock leases) (key : HwAddr) {lease : Lease}
    (hl : lease.expiry = UINT64_MAX ∨ lease.expiry.toNat < clock.toNat + 2 ^ 32) :
    Bounded clock (leases.insert key lease) := by
  intro k l hf
  rw [OrdMap.find?_insert] at hf
  split_ifs at hf
  · exact Option.some.inj hf ▸ hl
  · exact h k l hf

lemma bounded_stamp_add (env : Env) {n : UInt64} (hn : n.toNat < 2 ^ 32) (addr : UInt32) :
    (⟨addr, env.stamp + n⟩ : Lease).expiry = UINT64_MAX ∨
      (⟨addr, env.stamp + n⟩ : Lease).expiry.toNat < env.stamp.toNat + 2 ^ 32 := by
  right
  show (env.stamp + n).toNat < env.stamp.toNat + 2 ^ 32
  rw [env.toNat_stamp_add hn]
  omega

/-- **One packet** keeps the leases bounded. -/
theorem bounded_step {s : State} {ev : Event} (h : Bounded s.clock s.leases)
    (hp : Proper host cfg s ev) :
    Bounded (step host cfg s ev).clock (step host cfg s ev).leases := by
  have hnow : Bounded ev.env.stamp s.leases :=
    h.later (UInt64.le_trans hp.1 ev.env.purge_le_stamp)
  have hlive := hnow.updateLeases ev.env.purge
  show Bounded ev.env.stamp (handle host cfg s ev).leases
  have ha := acted hp.2
  generalize handle host cfg s ev = o at ha ⊢
  cases ha with
  | discover hm =>
    have hd := discovered host cfg ev.env ev.datagram s.leases
    generalize handleDiscovery host cfg ev.env ev.datagram s.leases = o at hd ⊢
    cases hd with
    | overflow hlen => exact hnow
    | refused hlen ha => exact hlive
    | exhausted hlen ha ho => exact hlive
    | offered hlen ha ho dest options =>
      exact hlive.insert _ (bounded_stamp_add ev.env (by decide) _)
  | request hm =>
    have hr := requested host cfg ev.env ev.datagram s.leases
    generalize handleRequest host cfg ev.env ev.datagram s.leases = o at hr ⊢
    cases hr with
    | malformed hr => exact hnow
    | foreign hr hs dest => exact hnow
    | refused hr hs hl dest => exact hlive
    | granted hr hs hl hla dest =>
      have hlt := cfg.leaseTimeSeconds.toNat_lt
      exact hlive.insert _ (bounded_stamp_add ev.env (by simpa using hlt) _)
  | release hm => exact hnow.erase _
  | decline hm =>
    have hd := declined ev.datagram s.leases
    generalize handleDecline ev.datagram s.leases = o at hd ⊢
    cases hd with
    | failed hr hf => exact hnow
    | banned hr => exact hnow.insert _ (Or.inl rfl)
  -- this entry never expires
  | quiet hn hl hq => exact hl ▸ hnow

lemma sub_exact_iff {e now : UInt64} (hn : now.toNat < 2 ^ 63)
    (hb : e = UINT64_MAX ∨ e.toNat < now.toNat + 2 ^ 32) :
    ((e - now).toUInt32.toNat = e.toNat - now.toNat ∧ (e - now).toNat = e.toNat - now.toNat ∧
        (e - now).toUInt32.toNat = (e - now).toNat) ↔ now ≤ e ∧ e ≠ UINT64_MAX := by
  have hmax : e = UINT64_MAX ↔ e.toNat = 2 ^ 64 - 1 := UInt64.toNat_inj.symm
  have hlt := e.toNat_lt
  rw [hmax] at hb
  rw [ne_eq, hmax, UInt64.le_iff_toNat_le, UInt64.toNat_toUInt32, UInt64.toNat_sub]
  omega

lemma leaseTime_offerOptions {options : Options} {value : List UInt8}
    (h : options.lookup LEASE_TIME = some value) :
    (offerOptions cfg d options).lookup LEASE_TIME = some value := by
  have hset : (setRequestedOptions cfg d ((options.insert DHCP_MESSAGE_TYPE
      [DHCP_TYPE_OFFER]).insert SERVER_IDENTIFIER
        (toByteArray d.recvAddr.toBitVec))).lookup LEASE_TIME = some value := by
    rw [lookup_setRequestedOptions, Finmap.lookup_insert_of_ne _ (by decide),
      Finmap.lookup_insert_of_ne _ (by decide), h, Option.some_or]
  rw [offerOptions, setLeaseTime, if_pos (Finmap.mem_of_lookup_eq_some hset), hset]

lemma enqueued_of_renews (host : ByteOrder) (cfg : SubnetConfiguration) (hr : Renews d)
    (hlen : ¬ 6 < d.hwaddrLen) {lease : Lease}
    (hl : (updateLeases env.purge leases).find? d.hwAddr = some lease) :
    ∃ dest, (handleDiscovery host cfg env d leases).enqueued = [(dest, offerReply cfg d
      ((∅ : Options).insert LEASE_TIME
        (toByteArray (lease.expiry - env.now).toUInt32.toBitVec)) d.clientIp)] := by
  obtain ⟨-, h50, hc⟩ := hr
  have h14 : ¬ 14 < d.hwaddrLen := fun h => hlen (by grind)
  obtain ⟨dest, hd⟩ :
      ∃ dest, getReplyDestination host cfg env d (htonl host d.clientIp) = .ok dest :=
    getReplyDestination_ok host cfg env (Or.inr h14)
  refine ⟨dest, ?_⟩
  simp only [handleDiscovery, requestHwaddr, if_neg hlen, wantedAddress, h50, if_pos hc, hl,
    offerAddress, if_neg hc, hd, Outcome.enqueue, offerReply]

/-- **One packet** tells the remaining time exactly if the lease still runs. -/
theorem remainingExact_iff_stillRuns {s : State} {ev : Event} (hb : Bounded s.clock s.leases)
    (hp : Proper host cfg s ev) :
    RemainingExact host cfg s ev ↔ StillRuns s ev := by
  unfold RemainingExact StillRuns
  refine forall_congr' fun hr => forall_congr' fun lease => forall_congr' fun hl => ?_
  have hfits := (Faults.copies_inBounds_iff host cfg ev.env ev.datagram s.leases).mp hp.2
  have hlen : ¬ 6 < ev.datagram.hwaddrLen := UInt8.not_lt.mpr (hfits.discover hr.1)
  have hhandle : handle host cfg s ev = handleDiscovery host cfg ev.env ev.datagram s.leases := by
    rw [handle_of_message hp.2 hr.1, if_pos rfl]
  obtain ⟨dest, he⟩ := enqueued_of_renews host cfg hr hlen hl
  have hclock : s.clock.toNat ≤ ev.env.now.toNat :=
    UInt64.le_iff_toNat_le.mp (UInt64.le_trans hp.1 ev.env.purge_le_now)
  have hnow : ev.env.now.toNat < 2 ^ 63 :=
    lt_of_le_of_lt (UInt64.le_iff_toNat_le.mp ev.env.now_le_stamp) ev.env.stamp_lt
  -- the lease was bounded at the clock before, and time has only gone on since
  have hexp : lease.expiry = UINT64_MAX ∨ lease.expiry.toNat < ev.env.now.toNat + 2 ^ 32 := by
    rcases hb _ lease (find?_updateLeases_eq_some.mp hl).1 with hmax | hlt
    · exact Or.inl hmax
    · exact Or.inr (by omega)
  have hopt : (offerOptions cfg ev.datagram ((∅ : Options).insert LEASE_TIME
      (toByteArray (lease.expiry - ev.env.now).toUInt32.toBitVec))).lookup LEASE_TIME =
        some (toByteArray (lease.expiry - ev.env.now).toUInt32.toBitVec) :=
    leaseTime_offerOptions (Finmap.lookup_insert _)
  rw [← sub_exact_iff hnow hexp, hhandle, he]
  constructor
  · rintro ⟨e, bytes, hq, -, hbytes, -, hread, hrest⟩
    rw [← List.singleton_inj.mp hq] at hbytes
    rw [show (offerReply cfg ev.datagram _ _).options.lookup LEASE_TIME = _ from hopt,
      Option.some.injEq] at hbytes
    rw [← hbytes, readNumber_toByteArray (by norm_num)] at hread
    exact ⟨hread, hrest⟩
  · rintro ⟨hread, hrest⟩
    refine ⟨_, _, rfl, hasType_offerReply _ _, hopt, length_toByteArray _, ?_, hrest⟩
    rw [readNumber_toByteArray (by norm_num)]
    exact hread

/-- **The remaining lease time is exact** at every packet of a run exactly if the lease still runs
at every packet of the run that asks for it. -/
theorem remainingExact_iff (host : ByteOrder) (cfg : SubnetConfiguration) (es : List Event)
    (hrun : Meets (step host cfg) (Proper host cfg) init es) :
    Meets (step host cfg) (RemainingExact host cfg) init es ↔
      Meets (step host cfg) StillRuns init es :=
  meets_iff_of_invariant (I := fun s => Bounded s.clock s.leases)
    (fun _ _ hb hp => remainingExact_iff_stillRuns hb hp) (fun _ _ hb hp _ => bounded_step hb hp)
    (bounded_empty _) hrun

/-- The client that got an offer at 100 uses its address while the clock moves on from 109 to
111; the offer ends at 110. -/
def renewing : Event where
  env := ⟨109, 111, 111, none, by decide, by decide, by decide⟩
  datagram := { message DHCP_TYPE_DISCOVER (client 1) none with clientIp := 0x7f000a0a }

lemma proper_renewing : Meets (step .little Config.exampleConfig)
    (Proper .little Config.exampleConfig) init [⟨at100, discovering⟩, renewing] := by
  decide +kernel

theorem remainingExact_iff_renewing :
    Meets (step .little Config.exampleConfig) (RemainingExact .little Config.exampleConfig) init
        [⟨at100, discovering⟩, renewing] ↔
      Meets (step .little Config.exampleConfig) StillRuns init
        [⟨at100, discovering⟩, renewing] :=
  remainingExact_iff .little Config.exampleConfig [⟨at100, discovering⟩, renewing] proper_renewing

/-- It is offered the lease for 2^32 - 1 seconds more. -/
theorem renewing_wraps_around :
    Meets (step .little Config.exampleConfig) (Proper .little Config.exampleConfig) init
        [⟨at100, discovering⟩, renewing] ∧
      ¬ RemainingExact .little Config.exampleConfig
        (run (step .little Config.exampleConfig) init [⟨at100, discovering⟩]) renewing := by
  refine ⟨proper_renewing, fun h => ?_⟩
  have hr : Renews renewing.datagram := ⟨by decide, by decide, by decide⟩
  have hl : (updateLeases renewing.env.purge (run (step .little Config.exampleConfig) init
      [⟨at100, discovering⟩]).leases).find? renewing.datagram.hwAddr =
        some ⟨0x7f000a0a, 110⟩ := by decide +kernel
  obtain ⟨-, -, -, -, -, -, -, hwrap, -⟩ := h hr _ hl
  exact absurd hwrap (by decide)

end TinyDhcpd.Terms
