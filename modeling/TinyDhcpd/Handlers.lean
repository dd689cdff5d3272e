import TinyDhcpd.Daemon

/-!
What each handler does, said once.

`Handled` lists the ways a packet can go through `handle_recv`; the lemmas after it give the
outcome of each handler in terms of the packet and of the leases that are alive. Everything
about runs is derived from these.
-/

namespace TinyDhcpd.Daemon

open Bytes OptionTag

variable {host : ByteOrder} {cfg : SubnetConfiguration} {env : Env} {d : DhcpDatagram}
  {leases : LeaseTable}

/-! ### The purge -/

lemma find?_updateLeases (time : UInt64) (leases : LeaseTable) (key : HwAddr) :
    (updateLeases time leases).find? key =
      (leases.find? key).filter fun lease => ¬ lease.expiry ≤ time := by
  rw [updateLeases, OrdMap.find?_filter]

lemma find?_updateLeases_eq_some {time : UInt64} {key : HwAddr} {lease : Lease} :
    (updateLeases time leases).find? key = some lease ↔
      leases.find? key = some lease ∧ time < lease.expiry := by
  rw [find?_updateLeases, Option.filter_eq_some_iff]
  simp only [decide_eq_true_eq, UInt64.not_le]

lemma find?_updateLeases_of_le {time time' : UInt64} (h : time ≤ time') {key : HwAddr}
    {lease : Lease} (hl : (updateLeases time' leases).find? key = some lease) :
    (updateLeases time leases).find? key = some lease := by
  obtain ⟨hmem, hexp⟩ := find?_updateLeases_eq_some.mp hl
  exact find?_updateLeases_eq_some.mpr ⟨hmem, UInt64.lt_of_le_of_lt h hexp⟩

lemma updateLeases_updateLeases {time time' : UInt64} (h : time ≤ time') (leases : LeaseTable) :
    updateLeases time' (updateLeases time leases) = updateLeases time' leases := by
  refine OrdMap.ext_find? fun key => Option.ext fun lease => ?_
  simp only [find?_updateLeases_eq_some, and_assoc]
  exact and_congr_right fun _ => and_iff_right_of_imp fun he => UInt64.lt_of_le_of_lt h he

lemma updateLeases_insert {time : UInt64} {lease : Lease} (h : time < lease.expiry)
    (leases : LeaseTable) (key : HwAddr) :
    updateLeases time (leases.insert key lease) = (updateLeases time leases).insert key lease := by
  refine OrdMap.ext_find? fun k => Option.ext fun l => ?_
  rw [find?_updateLeases_eq_some, OrdMap.find?_insert, OrdMap.find?_insert]
  split_ifs with hk
  · exact and_iff_left_of_imp fun hl => Option.some.inj hl ▸ h
  · exact find?_updateLeases_eq_some.symm

/-! ### The dispatch -/

/-- The packet is a request with this message type. -/
def IsMessage (d : DhcpDatagram) (type : UInt8) : Prop :=
  d.opcode = 1 ∧ ∃ rest, d.options.lookup DHCP_MESSAGE_TYPE = some (type :: rest)

instance (d : DhcpDatagram) (type : UInt8) : Decidable (IsMessage d type) :=
  decidable_of_iff (d.opcode = 1 ∧ (d.options.lookup DHCP_MESSAGE_TYPE).bind List.head? = some type)
    (and_congr_right fun _ => by simp [Option.bind_eq_some_iff, List.head?_eq_some_iff])

lemma IsMessage.unique {t t' : UInt8} (h : IsMessage d t) (h' : IsMessage d t') : t = t' := by
  obtain ⟨-, r, hr⟩ := h
  obtain ⟨-, r', hr'⟩ := h'
  rw [hr] at hr'
  simp only [Option.some.injEq, List.cons.injEq] at hr'
  exact hr'.1

lemma IsMessage.not_of_ne {t t' : UInt8} (h : IsMessage d t) (hne : t ≠ t') : ¬ IsMessage d t' :=
  fun h' => hne (h.unique h')

lemma IsMessage.iff {t t' : UInt8} (h : IsMessage d t) : IsMessage d t' ↔ t = t' :=
  ⟨h.unique, fun ht => ht ▸ h⟩

/-- The message types with a handler. -/
def servedTypes : List UInt8 :=
  [DHCP_TYPE_DISCOVER, DHCP_TYPE_REQUEST, DHCP_TYPE_RELEASE, DHCP_TYPE_INFORM, DHCP_TYPE_DECLINE]

/-- The ways a packet goes through `handle_recv`. -/
inductive Handled (host : ByteOrder) (cfg : SubnetConfiguration) (env : Env) (d : DhcpDatagram)
    (leases : LeaseTable) : Outcome → Prop
  | overread (h : 16 < d.hwaddrLen) :
    Handled host cfg env d leases (.throw (.outOfBounds 16) leases)
  | ignored (h : d.opcode ≠ 1) : Handled host cfg env d leases (.ret leases)
  | untyped (hop : d.opcode = 1) (h : ∀ t, ¬ IsMessage d t) :
    Handled host cfg env d leases (.throw .outOfRange leases)
  | unknown {t : UInt8} (h : IsMessage d t) (ht : t ∉ servedTypes) :
    Handled host cfg env d leases (.ret leases)
  | discover (h : IsMessage d DHCP_TYPE_DISCOVER) :
    Handled host cfg env d leases (handleDiscovery host cfg env d leases)
  | request (h : IsMessage d DHCP_TYPE_REQUEST) :
    Handled host cfg env d leases (handleRequest host cfg env d leases)
  | release (h : IsMessage d DHCP_TYPE_RELEASE) :
    Handled host cfg env d leases (handleRelease d leases)
  | inform (h : IsMessage d DHCP_TYPE_INFORM) :
    Handled host cfg env d leases (handleInform host cfg env d leases)
  | decline (h : IsMessage d DHCP_TYPE_DECLINE) :
    Handled host cfg env d leases (handleDecline d leases)

theorem handled (host : ByteOrder) (cfg : SubnetConfiguration) (env : Env) (d : DhcpDatagram)
    (leases : LeaseTable) :
    Handled host cfg env d leases (handleRecv host cfg env d leases) := by
  unfold handleRecv
  split_ifs with hlen hop
  · exact .overread hlen
  · exact .ignored hop
  have hop : d.opcode = 1 := not_not.mp hop
  rcases ho : d.options.lookup DHCP_MESSAGE_TYPE with _ | (_ | ⟨t, rest⟩)
  · exact .untyped hop fun t ⟨_, rest, h⟩ => by rw [ho] at h; cases h
  · exact .untyped hop fun t ⟨_, rest, h⟩ => by rw [ho] at h; cases h
  · have hm : IsMessage d t := ⟨hop, rest, ho⟩
    simp only [Option.getD_some]
    split_ifs with h1 h2 h3 h4 h5
    · exact .discover (h1 ▸ hm)
    · exact .request (h2 ▸ hm)
    · exact .release (h3 ▸ hm)
    · exact .inform (h4 ▸ hm)
    · exact .decline (h5 ▸ hm)
    · exact .unknown hm (by simp [servedTypes, h1, h2, h3, h4, h5])

lemma length_of_enqueued {e : SockaddrIn × DhcpDatagram}
    (he : e ∈ (handleRecv host cfg env d leases).enqueued) : ¬ 16 < d.hwaddrLen := by
  intro hlen
  rw [handleRecv, if_pos hlen] at he
  cases he

lemma handleRecv_of_message (hlen : ¬ 16 < d.hwaddrLen) {t : UInt8} (h : IsMessage d t) :
    handleRecv host cfg env d leases =
      if t = DHCP_TYPE_DISCOVER then handleDiscovery host cfg env d leases
      else if t = DHCP_TYPE_REQUEST then handleRequest host cfg env d leases
      else if t = DHCP_TYPE_RELEASE then handleRelease d leases
      else if t = DHCP_TYPE_INFORM then handleInform host cfg env d leases
      else if t = DHCP_TYPE_DECLINE then handleDecline d leases
      else .ret leases := by
  obtain ⟨hop, rest, ho⟩ := h
  rw [handleRecv, if_neg hlen, if_neg (not_not.mpr hop), ho]
  rfl

lemma handle_of_message {s : State} {ev : Event} {t : UInt8}
    (hd : (handle host cfg s ev).Defined) (h : IsMessage ev.datagram t) :
    handle host cfg s ev =
      if t = DHCP_TYPE_DISCOVER then handleDiscovery host cfg ev.env ev.datagram s.leases
      else if t = DHCP_TYPE_REQUEST then handleRequest host cfg ev.env ev.datagram s.leases
      else if t = DHCP_TYPE_RELEASE then handleRelease ev.datagram s.leases
      else if t = DHCP_TYPE_INFORM then handleInform host cfg ev.env ev.datagram s.leases
      else if t = DHCP_TYPE_DECLINE then handleDecline ev.datagram s.leases
      else .ret s.leases := by
  have hlen : ¬ 16 < ev.datagram.hwaddrLen := fun hlen =>
    hd 16 (by simp [handle, handleRecv, hlen, Outcome.throw])
  exact handleRecv_of_message hlen h

/-! ### The options of replies -/

/-- The tags of the parameter request list. -/
def requestList (d : DhcpDatagram) : List OptionTag :=
  (d.options.lookup PARAMETER_REQUEST_LIST).getD []

lemma lookup_setRequestedOption (cfg : SubnetConfiguration) (options : Options)
    (t tag : OptionTag) :
    (setRequestedOption cfg options t).lookup tag =
      (options.lookup tag).or (if tag = t then cfg.definedOptions.lookup tag else none) := by
  unfold setRequestedOption
  by_cases htag : tag = t
  · subst htag
    cases hv : cfg.definedOptions.lookup tag with
    | none => simp
    | some value =>
      simp only [if_true]
      split_ifs with hmem
      · obtain ⟨v, hv⟩ := Finmap.mem_iff.mp hmem
        simp [hv]
      · rw [Finmap.lookup_insert, Finmap.lookup_eq_none.mpr hmem, Option.none_or]
  · rw [if_neg htag, Option.or_none]
    split
    · rfl
    split_ifs
    · rfl
    · rw [Finmap.lookup_insert_of_ne _ htag]

/-- What the reply has already stays, and the requested tags are filled in from the
configuration. -/
theorem lookup_setRequestedOptions (cfg : SubnetConfiguration) (d : DhcpDatagram)
    (options : Options) (tag : OptionTag) :
    (setRequestedOptions cfg d options).lookup tag =
      (options.lookup tag).or
        (if tag ∈ requestList d then cfg.definedOptions.lookup tag else none) := by
  have hfold : ∀ (tags : List OptionTag) (options : Options),
      (tags.foldl (setRequestedOption cfg) options).lookup tag =
        (options.lookup tag).or
          (if tag ∈ tags then cfg.definedOptions.lookup tag else none) := by
    intro tags
    induction tags with
    | nil => exact fun options => by simp
    | cons t tags ih =>
      intro options
      rw [List.foldl_cons, ih, lookup_setRequestedOption, Option.or_assoc]
      by_cases ht : tag = t
      · subst ht
        by_cases hts : tag ∈ tags <;> simp [hts]
      · simp [ht]
  unfold setRequestedOptions requestList
  cases d.options.lookup PARAMETER_REQUEST_LIST with
  | none => simp
  | some tags => exact hfold tags options

lemma lookup_setRequestedOptions_of_mem {options : Options} {tag : OptionTag}
    (h : tag ∈ options) :
    (setRequestedOptions cfg d options).lookup tag = options.lookup tag := by
  obtain ⟨value, hv⟩ := Finmap.mem_iff.mp h
  rw [lookup_setRequestedOptions, hv, Option.some_or]

lemma lookup_setLeaseTime {options : Options} {tag : OptionTag} (h : tag ≠ LEASE_TIME) :
    (setLeaseTime cfg options).lookup tag = options.lookup tag := by
  unfold setLeaseTime
  split_ifs
  · rfl
  · rw [Finmap.lookup_insert_of_ne _ h]

@[simp] lemma messageType_offerOptions (options : Options) :
    (offerOptions cfg d options).lookup DHCP_MESSAGE_TYPE = some [DHCP_TYPE_OFFER] := by
  have hne : DHCP_MESSAGE_TYPE ≠ SERVER_IDENTIFIER := by decide
  rw [offerOptions, lookup_setLeaseTime (by decide), lookup_setRequestedOptions_of_mem,
    Finmap.lookup_insert_of_ne _ hne, Finmap.lookup_insert]
  exact Finmap.mem_insert.mpr (Or.inr (Finmap.mem_insert.mpr (Or.inl rfl)))

@[simp] lemma messageType_ackOptions :
    (ackOptions cfg d).lookup DHCP_MESSAGE_TYPE = some [DHCP_TYPE_ACK] := by
  have hne : DHCP_MESSAGE_TYPE ≠ SERVER_IDENTIFIER := by decide
  rw [ackOptions, lookup_setLeaseTime (by decide), Finmap.lookup_insert_of_ne _ hne,
    lookup_setRequestedOptions_of_mem, Finmap.lookup_insert]
  exact Finmap.mem_insert.mpr (Or.inl rfl)

/-- The kind of a reply, by its message type. -/
def HasType (reply : DhcpDatagram) (type : UInt8) : Prop :=
  reply.options.lookup DHCP_MESSAGE_TYPE = some [type]

instance (reply : DhcpDatagram) (type : UInt8) : Decidable (HasType reply type) :=
  inferInstanceAs (Decidable (_ = _))

lemma HasType.unique {reply : DhcpDatagram} {t t' : UInt8} (h : HasType reply t)
    (h' : HasType reply t') : t = t' := by
  unfold HasType at h h'
  rw [h] at h'
  simpa using h'

lemma HasType.not_of_ne {reply : DhcpDatagram} {t t' : UInt8} (h : HasType reply t)
    (hne : t ≠ t') : ¬ HasType reply t' :=
  fun h' => hne (h.unique h')

lemma hasType_ack (address : UInt32) : HasType (ack cfg d address) DHCP_TYPE_ACK :=
  messageType_ackOptions

lemma hasType_nak : HasType (nak d) DHCP_TYPE_NAK := Finmap.lookup_insert _

/-! ### The destination -/

lemma getReplyDestination_ok (host : ByteOrder) (cfg : SubnetConfiguration) (env : Env)
    {unicast : UInt32} (h : unicast = INADDR_ANY ∨ ¬ 14 < d.hwaddrLen) :
    ∃ dest, getReplyDestination host cfg env d unicast = .ok dest := by
  unfold getReplyDestination
  split_ifs with h1 h2
  · split <;> exact ⟨_, rfl⟩
  · rcases h with h | h
    · exact absurd (Or.inr (Or.inr (Or.inr h))) h1
    · exact absurd h2 h
  · exact ⟨_, rfl⟩

/-! ### DISCOVER -/

lemma clientMac_of_six (h : d.hwaddrLen = 6) : clientMac d = d.hwAddr.mac := by
  simp [clientMac, HwAddr.mac, h, d.hwAddr.length_eq]

/-- The address of a well-formed option 50. -/
def requestedIp (d : DhcpDatagram) : Option UInt32 :=
  (d.options.lookup REQUESTED_IP_ADDRESS).bind fun bytes =>
    if bytes.length = 4 then some (.ofBitVec (readNumber 32 bytes)) else none

/-- The address the client asks to keep: option 50 names it, it lies in the range, and the
client's own lease is for it. -/
def keeps (host : ByteOrder) (cfg : SubnetConfiguration) (d : DhcpDatagram)
    (leases : LeaseTable) : Option UInt32 :=
  (requestedIp d).filter fun requested => ntohl host cfg.rangeStart ≤ requested ∧
    requested ≤ ntohl host cfg.rangeEnd ∧
    (leases.find? d.hwAddr).map Lease.addr = some requested

lemma lease_of_keeps {address : UInt32} (h : keeps host cfg d leases = some address) :
    ∃ lease, leases.find? d.hwAddr = some lease ∧ lease.addr = address := by
  obtain ⟨-, hr⟩ := Option.filter_eq_some_iff.mp h
  simp only [decide_eq_true_eq] at hr
  exact Option.map_eq_some_iff.mp hr.2.2

/-- No exception is raised on the way to an address: option 50 is an address, and a `ciaddr`
that comes without option 50 comes from a client with a lease. -/
def Answerable (d : DhcpDatagram) (leases : LeaseTable) : Prop :=
  (∀ bytes ∈ d.options.lookup REQUESTED_IP_ADDRESS, bytes.length = 4) ∧
    (d.options.lookup REQUESTED_IP_ADDRESS = none → d.clientIp ≠ INADDR_ANY →
      (leases.find? d.hwAddr).isSome)

instance (d : DhcpDatagram) (leases : LeaseTable) : Decidable (Answerable d leases) :=
  inferInstanceAs (Decidable (_ ∧ _))

/-- The address the client is known to want, `INADDR_ANY` for none. -/
def wish (host : ByteOrder) (cfg : SubnetConfiguration) (d : DhcpDatagram)
    (leases : LeaseTable) : UInt32 := (keeps host cfg d leases).getD d.clientIp

lemma toNumber_eq_ok {bytes : List UInt8} (h : bytes.length = 4) :
    toNumber 32 bytes = .ok (readNumber 32 bytes) := by
  rw [toNumber, if_neg (by simpa using h)]

lemma toNumber_eq_error {bytes : List UInt8} (h : bytes.length ≠ 4) :
    toNumber 32 bytes = .error (.invalidArgument "The given vector is not the right size!") := by
  rw [toNumber, if_pos (by simpa using h)]

lemma wantedAddress_of_answerable (host : ByteOrder) (cfg : SubnetConfiguration) (env : Env)
    (h : Answerable d leases) :
    ∃ options, wantedAddress host cfg env d leases = .ok (wish host cfg d leases, options) := by
  unfold wantedAddress wish keeps requestedIp
  cases ho : d.options.lookup REQUESTED_IP_ADDRESS with
  | some bytes =>
    have h4 : bytes.length = 4 := h.1 bytes ho
    simp only [Option.bind_some, if_pos h4, toNumber_eq_ok h4, bind, Except.bind]
    split_ifs with hr
    · exact ⟨∅, by simp only [Option.filter_some, hr]; rfl⟩
    · exact ⟨∅, by simp only [Option.filter_some, hr, decide_false]; rfl⟩
  | none =>
    simp only [Option.bind_none, Option.filter_none, Option.getD_none]
    split_ifs with hc
    · obtain ⟨lease, hl⟩ := Option.isSome_iff_exists.mp (h.2 ho hc)
      rw [hl]
      exact ⟨_, rfl⟩
    · exact ⟨∅, rfl⟩

/-- Without option 50 the exception is the one of `.at()`, otherwise that of `to_number`. -/
lemma wantedAddress_of_not_answerable (h : ¬ Answerable d leases) :
    wantedAddress host cfg env d leases = .error
      (if d.options.lookup REQUESTED_IP_ADDRESS = none then .outOfRange
       else .invalidArgument "The given vector is not the right size!") := by
  unfold wantedAddress
  cases ho : d.options.lookup REQUESTED_IP_ADDRESS with
  | some bytes =>
    have h4 : bytes.length ≠ 4 := by
      intro h4
      refine h ⟨fun b hb => ?_, fun hn => ?_⟩
      · rw [ho] at hb; cases hb; exact h4
      · rw [ho] at hn; cases hn
    simp [toNumber_eq_error h4, bind, Except.bind]
  | none =>
    have hc : d.clientIp ≠ INADDR_ANY ∧ leases.find? d.hwAddr = none := by
      by_contra hc
      refine h ⟨fun b hb => ?_, fun _ hne => ?_⟩
      · rw [ho] at hb; cases hb
      · by_contra hl
        exact hc ⟨hne, by simpa using hl⟩
    simp [hc.1, hc.2]

inductive Source (host : ByteOrder) (cfg : SubnetConfiguration) (hwaddr : EtherAddr)
    (wanted : UInt32) (leases : LeaseTable) : UInt32 → Prop
  | wanted (hw : wanted ≠ INADDR_ANY) : Source host cfg hwaddr wanted leases wanted
  | reserved (hw : wanted = INADDR_ANY) {reserved : UInt32}
    (hf : cfg.fixedHosts.lookup hwaddr = some reserved) :
    Source host cfg hwaddr wanted leases (ntohl host reserved)
  | unused (hw : wanted = INADDR_ANY) (hf : cfg.fixedHosts.lookup hwaddr = none)
    (he : leases.first? = none) : Source host cfg hwaddr wanted leases (ntohl host cfg.rangeStart)
  | start (hw : wanted = INADDR_ANY) (hf : cfg.fixedHosts.lookup hwaddr = none)
    {first : HwAddr × Lease} (he : leases.first? = some first)
    (hne : first.2.addr ≠ ntohl host cfg.rangeStart)
    (hlt : ntohl host cfg.rangeStart < ntohl host cfg.rangeEnd) :
    Source host cfg hwaddr wanted leases (ntohl host cfg.rangeStart)
  | next (hw : wanted = INADDR_ANY) (hf : cfg.fixedHosts.lookup hwaddr = none)
    {first : HwAddr × Lease} (he : leases.first? = some first)
    (heq : first.2.addr = ntohl host cfg.rangeStart)
    (hlt : ntohl host cfg.rangeStart + 1 < ntohl host cfg.rangeEnd) :
    Source host cfg hwaddr wanted leases (ntohl host cfg.rangeStart + 1)

lemma le_add_one_iff {a : UInt32} : a ≤ a + 1 ↔ a ≠ 0xffffffff := by
  have h32 := a.toNat_lt
  have hmax : a = 0xffffffff ↔ a.toNat = 0xffffffff := UInt32.toNat_inj.symm
  rw [UInt32.le_iff_toNat_le, UInt32.toNat_add, UInt32.toNat_one, ne_eq, hmax]
  omega

lemma searchRange_entries (start rangeEnd : UInt32) (leases : LeaseTable) :
    searchRange start rangeEnd leases.entries =
      match leases.first? with
      | none => some start
      | some first =>
        if first.2.addr = start then if start + 1 < rangeEnd then some (start + 1) else none
        else if start < rangeEnd then some start else none := by
  unfold OrdMap.first?
  cases leases.entries with
  | nil => rfl
  | cons e es =>
    simp only [searchRange, List.head?_cons, eq_comm (b := e.2.addr), ← UInt32.not_le]
    split_ifs <;> simp_all

theorem offerAddress_eq_some {hwaddr : EtherAddr} {wanted offer : UInt32} :
    offerAddress host cfg hwaddr wanted leases = some offer ↔
      Source host cfg hwaddr wanted leases offer := by
  unfold offerAddress
  constructor
  · intro h
    by_cases hw : wanted = INADDR_ANY
    · rw [if_pos hw] at h
      cases hf : cfg.fixedHosts.lookup hwaddr with
      | some reserved => simp only [hf, Option.some.injEq] at h; exact h ▸ .reserved hw hf
      | none =>
        simp only [hf, searchRange_entries] at h
        cases he : leases.first? with
        | none => simp only [he, Option.some.injEq] at h; exact h ▸ .unused hw hf he
        | some first =>
          simp only [he] at h
          split_ifs at h with h1 h2 h2
          · exact Option.some.inj h ▸ .next hw hf he h1 h2
          · exact Option.some.inj h ▸ .start hw hf he h1 h2
    · rw [if_neg hw, Option.some.injEq] at h
      exact h ▸ .wanted hw
  · rintro (hw | ⟨hw, hf⟩ | ⟨hw, hf, he⟩ | ⟨hw, hf, he, hne, hlt⟩ | ⟨hw, hf, he, heq, hlt⟩)
    · rw [if_neg hw]
    all_goals simp only [if_pos hw, hf, searchRange_entries]
    · rw [he]
    · simp only [he, if_neg hne, if_pos hlt]
    · simp only [he, if_pos heq, if_pos hlt]

def offerReply (cfg : SubnetConfiguration) (d : DhcpDatagram) (options : Options)
    (offer : UInt32) : DhcpDatagram :=
  { createSkeletonReplyDatagram d with
    assignedIp := offer
    options := offerOptions cfg d options }

lemma hasType_offerReply (options : Options) (offer : UInt32) :
    HasType (offerReply cfg d options offer) DHCP_TYPE_OFFER := messageType_offerOptions options

/-- The ways a DISCOVER ends. -/
inductive Discovered (host : ByteOrder) (cfg : SubnetConfiguration) (env : Env)
    (d : DhcpDatagram) (leases : LeaseTable) : Outcome → Prop
  | overflow (hlen : 6 < d.hwaddrLen) :
    Discovered host cfg env d leases (.throw (.outOfBounds 6) leases)
  | refused (hlen : ¬ 6 < d.hwaddrLen) (ha : ¬ Answerable d (updateLeases env.purge leases)) :
    Discovered host cfg env d leases (.throw
      (if d.options.lookup REQUESTED_IP_ADDRESS = none then .outOfRange
       else .invalidArgument "The given vector is not the right size!")
      (updateLeases env.purge leases))
  | exhausted (hlen : ¬ 6 < d.hwaddrLen) (ha : Answerable d (updateLeases env.purge leases))
    (ho : offerAddress host cfg (clientMac d)
      (wish host cfg d (updateLeases env.purge leases)) (updateLeases env.purge leases) = none) :
    Discovered host cfg env d leases (.ret (updateLeases env.purge leases))
  | offered (hlen : ¬ 6 < d.hwaddrLen) (ha : Answerable d (updateLeases env.purge leases))
    {offer : UInt32} (ho : offerAddress host cfg (clientMac d)
      (wish host cfg d (updateLeases env.purge leases)) (updateLeases env.purge leases) =
        some offer)
    (dest : SockaddrIn) (options : Options) :
    Discovered host cfg env d leases
      ⟨.ok (), (updateLeases env.purge leases).insert d.hwAddr ⟨offer, env.stamp + 10⟩,
        [(dest, offerReply cfg d options offer)]⟩

theorem discovered (host : ByteOrder) (cfg : SubnetConfiguration) (env : Env)
    (d : DhcpDatagram) (leases : LeaseTable) :
    Discovered host cfg env d leases (handleDiscovery host cfg env d leases) := by
  unfold handleDiscovery requestHwaddr
  by_cases hlen : 6 < d.hwaddrLen
  · rw [if_pos hlen]; exact .overflow hlen
  rw [if_neg hlen]
  by_cases ha : Answerable d (updateLeases env.purge leases)
  · obtain ⟨options, hw⟩ := wantedAddress_of_answerable host cfg env ha
    simp only [hw]
    split
    · rename_i ho
      exact .exhausted hlen ha ho
    · rename_i offer ho
      have h14 : ¬ 14 < d.hwaddrLen := fun h => hlen (by grind)
      obtain ⟨dest, hd⟩ :
          ∃ dest, getReplyDestination host cfg env d (htonl host offer) = .ok dest :=
        getReplyDestination_ok host cfg env (Or.inr h14)
      rw [hd]
      exact .offered hlen ha ho dest options
  · simp only [wantedAddress_of_not_answerable ha]
    exact .refused hlen ha

/-! ### REQUEST, INFORM and DECLINE -/

inductive Requested (host : ByteOrder) (cfg : SubnetConfiguration) (env : Env)
    (d : DhcpDatagram) (leases : LeaseTable) : Outcome → Prop
  | malformed (hr : requestedAddress d =
      .error (.invalidArgument "The given vector is not the right size!")) :
    Requested host cfg env d leases
      (.throw (.invalidArgument "The given vector is not the right size!") leases)
  | foreign {address : UInt32} (hr : requestedAddress d = .ok address)
    (hs : inSubnet host cfg address = false) (dest : SockaddrIn) :
    Requested host cfg env d leases ⟨.ok (), leases, [(dest, nak d)]⟩
  | refused {address : UInt32} (hr : requestedAddress d = .ok address)
    (hs : inSubnet host cfg address = true)
    (hl : ∀ lease, (updateLeases env.purge leases).find? d.hwAddr = some lease →
      lease.addr ≠ address) (dest : SockaddrIn) :
    Requested host cfg env d leases ⟨.ok (), updateLeases env.purge leases, [(dest, nak d)]⟩
  | granted {address : UInt32} (hr : requestedAddress d = .ok address)
    (hs : inSubnet host cfg address = true) {lease : Lease}
    (hl : (updateLeases env.purge leases).find? d.hwAddr = some lease)
    (hla : lease.addr = address) (dest : SockaddrIn) :
    Requested host cfg env d leases ⟨.ok (), (updateLeases env.purge leases).insert d.hwAddr
      ⟨address, env.stamp + cfg.leaseTimeSeconds.toUInt64⟩, [(dest, ack cfg d address)]⟩

lemma requestedAddress_cases (d : DhcpDatagram) :
    (∃ address, requestedAddress d = .ok address) ∨
      requestedAddress d = .error (.invalidArgument "The given vector is not the right size!") := by
  unfold requestedAddress
  cases d.options.lookup REQUESTED_IP_ADDRESS with
  | none => exact Or.inl ⟨_, rfl⟩
  | some bytes =>
    by_cases h4 : bytes.length = 4
    · exact Or.inl ⟨_, by simp only [toNumber_eq_ok h4]; rfl⟩
    · exact Or.inr (by simp only [toNumber_eq_error h4]; rfl)

theorem requested (host : ByteOrder) (cfg : SubnetConfiguration) (env : Env)
    (d : DhcpDatagram) (leases : LeaseTable) :
    Requested host cfg env d leases (handleRequest host cfg env d leases) := by
  obtain ⟨dest, hd⟩ : ∃ dest, getReplyDestination host cfg env d INADDR_ANY = .ok dest :=
    getReplyDestination_ok host cfg env (Or.inl rfl)
  unfold handleRequest
  rcases requestedAddress_cases d with ⟨address, hr⟩ | hr
  · simp only [hr, hd, Outcome.enqueue]
    by_cases hs : inSubnet host cfg address = true
    · rw [if_neg (not_not.mpr hs)]
      cases hl : (updateLeases env.purge leases).find? d.hwAddr with
      | none => exact .refused hr hs (by rw [hl]; simp) dest
      | some lease =>
        by_cases hla : lease.addr = address
        · simp only [if_pos hla]
          exact .granted hr hs hl hla dest
        · simp only [if_neg hla]
          refine .refused hr hs (fun l h => ?_) dest
          rw [hl] at h
          cases h
          exact hla
    · rw [if_pos hs]
      exact .foreign hr (by simpa using hs) dest
  · simp only [hr]
    exact .malformed hr

def informReply (cfg : SubnetConfiguration) (d : DhcpDatagram) : DhcpDatagram :=
  { createSkeletonReplyDatagram d with
    options := (setRequestedOptions cfg d ∅).erase LEASE_TIME }

inductive Informed (host : ByteOrder) (cfg : SubnetConfiguration) (env : Env)
    (d : DhcpDatagram) (leases : LeaseTable) : Outcome → Prop
  | overflow (h : getReplyDestination host cfg env d d.clientIp = .error (.outOfBounds 14)) :
    Informed host cfg env d leases (.throw (.outOfBounds 14) leases)
  | replied {dest : SockaddrIn} (h : getReplyDestination host cfg env d d.clientIp = .ok dest) :
    Informed host cfg env d leases ⟨.ok (), leases, [(dest, informReply cfg d)]⟩

theorem informed (host : ByteOrder) (cfg : SubnetConfiguration) (env : Env)
    (d : DhcpDatagram) (leases : LeaseTable) :
    Informed host cfg env d leases (handleInform host cfg env d leases) := by
  unfold handleInform
  cases hd : getReplyDestination host cfg env d d.clientIp with
  | ok dest => exact .replied hd
  | error fault =>
    have hf : fault = .outOfBounds 14 := by
      unfold getReplyDestination at hd
      split_ifs at hd
      · split at hd <;> cases hd
      · cases hd; rfl
    subst hf
    exact .overflow hd

lemma messageType_informReply :
    (informReply cfg d).options.lookup DHCP_MESSAGE_TYPE =
      if DHCP_MESSAGE_TYPE ∈ requestList d then cfg.definedOptions.lookup DHCP_MESSAGE_TYPE
      else none := by
  have hne : DHCP_MESSAGE_TYPE ≠ LEASE_TIME := by decide
  rw [informReply, Finmap.lookup_erase_ne hne, lookup_setRequestedOptions, Finmap.lookup_empty,
    Option.none_or]

lemma not_hasType_informReply (h : DHCP_MESSAGE_TYPE ∉ cfg.definedOptions) (type : UInt8) :
    ¬ HasType (informReply cfg d) type := by
  rw [HasType, messageType_informReply, Finmap.lookup_eq_none.mpr h, ite_self]
  simp

inductive Declined (d : DhcpDatagram) (leases : LeaseTable) : Outcome → Prop
  | failed (hr : requestedIp d = none) {fault : Fault}
    (hf : fault = if d.options.lookup REQUESTED_IP_ADDRESS = none then .outOfRange
      else .invalidArgument "The given vector is not the right size!") :
    Declined d leases (.throw fault leases)
  | banned {address : UInt32} (hr : requestedIp d = some address) :
    Declined d leases (.ret (leases.insert HwAddr.zero ⟨address, UINT64_MAX⟩))

theorem declined (d : DhcpDatagram) (leases : LeaseTable) :
    Declined d leases (handleDecline d leases) := by
  unfold handleDecline
  cases ho : d.options.lookup REQUESTED_IP_ADDRESS with
  | none => exact .failed (by simp [requestedIp, ho]) (by simp [ho])
  | some bytes =>
    by_cases h4 : bytes.length = 4
    · simp only [toNumber_eq_ok h4]
      exact .banned (by simp [requestedIp, ho, h4])
    · simp only [toNumber_eq_error h4]
      exact .failed (by simp [requestedIp, ho, h4]) (by simp [ho])

lemma enqueued_decline (d : DhcpDatagram) (leases : LeaseTable) :
    (handleDecline d leases).enqueued = [] := by
  have h := declined d leases
  generalize handleDecline d leases = o at h ⊢
  cases h with
  | failed hr hf => rfl
  | banned hr => rfl

/-! ### One step -/

/-- The message types whose handlers change the leases or promise an address. -/
def leaseTypes : List UInt8 :=
  [DHCP_TYPE_DISCOVER, DHCP_TYPE_REQUEST, DHCP_TYPE_RELEASE, DHCP_TYPE_DECLINE]

/-- What a step with defined behaviour does: one of four messages is handled, or the leases
stay as they are and nothing is offered or confirmed. -/
inductive Acted (host : ByteOrder) (cfg : SubnetConfiguration) (s : State) (ev : Event) :
    Outcome → Prop
  | discover (hm : IsMessage ev.datagram DHCP_TYPE_DISCOVER) :
    Acted host cfg s ev (handleDiscovery host cfg ev.env ev.datagram s.leases)
  | request (hm : IsMessage ev.datagram DHCP_TYPE_REQUEST) :
    Acted host cfg s ev (handleRequest host cfg ev.env ev.datagram s.leases)
  | release (hm : IsMessage ev.datagram DHCP_TYPE_RELEASE) :
    Acted host cfg s ev (.ret (s.leases.erase ev.datagram.hwAddr))
  | decline (hm : IsMessage ev.datagram DHCP_TYPE_DECLINE) :
    Acted host cfg s ev (handleDecline ev.datagram s.leases)
  | quiet {o : Outcome} (hn : ∀ t ∈ leaseTypes, ¬ IsMessage ev.datagram t)
    (hl : o.leases = s.leases)
    (hq : DHCP_MESSAGE_TYPE ∉ cfg.definedOptions → ∀ e ∈ o.enqueued,
      ¬ HasType e.2 DHCP_TYPE_OFFER ∧ ¬ HasType e.2 DHCP_TYPE_ACK) : Acted host cfg s ev o

theorem acted {s : State} {ev : Event} (hd : (handle host cfg s ev).Defined) :
    Acted host cfg s ev (handle host cfg s ev) := by
  have silent {o : Outcome} (h : o.enqueued = []) :
      DHCP_MESSAGE_TYPE ∉ cfg.definedOptions → ∀ e ∈ o.enqueued,
        ¬ HasType e.2 DHCP_TYPE_OFFER ∧ ¬ HasType e.2 DHCP_TYPE_ACK := by
    rw [h]
    simp
  unfold handle at hd ⊢
  have h := handled host cfg ev.env ev.datagram s.leases
  generalize handleRecv host cfg ev.env ev.datagram s.leases = o at h hd ⊢
  cases h with
  | overread h => exact absurd rfl (hd 16)
  | ignored hop => exact .quiet (fun _ _ hm => hop hm.1) rfl (silent rfl)
  | untyped hop hn => exact .quiet (fun t _ => hn t) rfl (silent rfl)
  | unknown hm hu =>
    refine .quiet (fun t ht hc => hu ?_) rfl (silent rfl)
    rw [hm.unique hc]
    exact (show leaseTypes ⊆ servedTypes by simp [leaseTypes, servedTypes]) ht
  | discover hm => exact .discover hm
  | request hm => exact .request hm
  | release hm => exact .release hm
  | decline hm => exact .decline hm
  | inform hm =>
    have hn : ∀ t ∈ leaseTypes, ¬ IsMessage ev.datagram t := by
      intro t ht hc
      rw [← hm.unique hc] at ht
      exact absurd ht (by decide)
    have hi := informed host cfg ev.env ev.datagram s.leases
    generalize handleInform host cfg ev.env ev.datagram s.leases = o at hi ⊢
    cases hi with
    | overflow _ => exact .quiet hn rfl (silent rfl)
    | replied _ =>
      refine .quiet hn rfl fun hopt e he => ?_
      rw [List.mem_singleton.mp he]
      exact ⟨not_hasType_informReply hopt _, not_hasType_informReply hopt _⟩

end TinyDhcpd.Daemon
