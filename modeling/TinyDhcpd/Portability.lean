import TinyDhcpd.Pool
import TinyDhcpd.Restart

/-!
The program on machines of either byte order.

The configuration and the system have their addresses in network order, the handlers work on
numbers in host order, and the two are converted into one another all over the program. Where
all conversions are in place, a machine does what the one does whose own order is that of the
network: it reads the same configuration, keeps the same leases, writes the same file and sends
the same bytes.
-/

namespace TinyDhcpd.Portability

open Bytes Inet OptionTag DhcpDatagram Config Pool Daemon Receive LeaseFile Refinement Run

/-- Two computations fail in the same way, or both have a result, and the results are related. -/
inductive Relates {ε α β : Type} (R : α → β → Prop) : Except ε α → Except ε β → Prop
  | ok {a : α} {b : β} (h : R a b) : Relates R (.ok a) (.ok b)
  | error (e : ε) : Relates R (.error e) (.error e)

lemma Relates.bind {ε α β α' β' : Type} {R : α → β → Prop} {R' : α' → β' → Prop}
    {x : Except ε α} {y : Except ε β} {f : α → Except ε α'} {g : β → Except ε β'}
    (h : Relates R x y) (hf : ∀ a b, R a b → Relates R' (f a) (g b)) :
    Relates R' (x >>= f) (y >>= g) := by
  cases h with
  | ok h => exact hf _ _ h
  | error e => exact .error e

variable (host : ByteOrder)

/-- `cfg` is what the machine has where one of network order has `cfg₀`. -/
structure Renders (cfg₀ cfg : SubnetConfiguration) : Prop where
  subnetAddress : cfg.subnetAddress = htonl host cfg₀.subnetAddress
  rangeStart : cfg.rangeStart = htonl host cfg₀.rangeStart
  rangeEnd : cfg.rangeEnd = htonl host cfg₀.rangeEnd
  netmask : cfg.netmask = htonl host cfg₀.netmask
  leaseTimeSeconds : cfg.leaseTimeSeconds = cfg₀.leaseTimeSeconds
  fixedHosts : ∀ mac, cfg.fixedHosts.lookup mac = (cfg₀.fixedHosts.lookup mac).map (htonl host)
  definedOptions : cfg.definedOptions = cfg₀.definedOptions

structure RendersProgram (c₀ c : ProgramConfiguration) : Prop where
  address : c.address = htonl host c₀.address
  interface : c.interface = c₀.interface
  leaseFilePath : c.leaseFilePath = c₀.leaseFilePath
  subnetConfig : Renders host c₀.subnetConfig c.subnetConfig

/-- The surroundings as the machine has them. -/
def atHost (env : Env) : Env := { env with brdaddr := env.brdaddr.map (htonl host) }

/-- The datagram as the machine holds it. The two fields that are converted once too often when
a packet is decoded are converted back when one is sent. -/
def held (serverIp : UInt32) (d : DhcpDatagram) : DhcpDatagram :=
  { d with
    transactionId := ntohl host d.transactionId
    secsPassed := ntohs host d.secsPassed
    serverIp := serverIp }

@[simp] lemma purge_atHost (env : Env) : (atHost host env).purge = env.purge := rfl
@[simp] lemma now_atHost (env : Env) : (atHost host env).now = env.now := rfl
@[simp] lemma stamp_atHost (env : Env) : (atHost host env).stamp = env.stamp := rfl

section
variable (serverIp : UInt32) (d : DhcpDatagram)

@[simp] lemma opcode_held : (held host serverIp d).opcode = d.opcode := rfl
@[simp] lemma hwaddrLen_held : (held host serverIp d).hwaddrLen = d.hwaddrLen := rfl
@[simp] lemma flags_held : (held host serverIp d).flags = d.flags := rfl
@[simp] lemma clientIp_held : (held host serverIp d).clientIp = d.clientIp := rfl
@[simp] lemma recvAddr_held : (held host serverIp d).recvAddr = d.recvAddr := rfl
@[simp] lemma hwAddr_held : (held host serverIp d).hwAddr = d.hwAddr := rfl
@[simp] lemma options_held : (held host serverIp d).options = d.options := rfl

end

/-! ### The configuration -/

variable {host} {cfg₀ cfg : SubnetConfiguration}

lemma inetAton_big (host : ByteOrder) (s : List Char) :
    inetAton host s = (inetAton .big s).map (htonl host) := by
  unfold inetAton
  rw [Option.map_map]
  rfl

lemma and_htonl_eq_iff (a b m : UInt32) :
    htonl host a &&& htonl host m = htonl host b &&& htonl host m ↔ a &&& m = b &&& m := by
  rw [← htonl_and, ← htonl_and]
  exact ⟨htonl_injective host, congrArg (htonl host)⟩

lemma checkNetRange_renders (h : Renders host cfg₀ cfg) :
    checkNetRange cfg = checkNetRange cfg₀ := by
  unfold checkNetRange
  simp only [h.subnetAddress, h.netmask, h.rangeStart, h.rangeEnd, ne_eq, and_htonl_eq_iff]

lemma parseHost_renders (h : Renders host cfg₀ cfg) (entry : Setting) :
    Renders host (parseHost .big cfg₀ entry) (parseHost host cfg entry) := by
  unfold parseHost
  cases entry.lookupString "ether" with
  | none => exact h
  | some ether =>
    cases entry.lookupString "fixed-address" with
    | none => exact h
    | some fixed =>
      simp only [inetAton_big host fixed]
      cases etherAton ether with
      | none => exact h
      | some mac =>
        cases inetAton .big fixed with
        | none => exact h
        | some addr =>
          have hin : htonl host addr &&& cfg.netmask = cfg.subnetAddress &&& cfg.netmask ↔
              addr &&& cfg₀.netmask = cfg₀.subnetAddress &&& cfg₀.netmask := by
            rw [h.subnetAddress, h.netmask, and_htonl_eq_iff]
          simp only [Option.map_some, ne_eq, hin]
          split_ifs
          · refine { h with fixedHosts := fun key => ?_ }
            by_cases hkey : key = mac
            · subst hkey
              rw [Finmap.lookup_insert, Finmap.lookup_insert, Option.map_some]
            · rw [Finmap.lookup_insert_of_ne _ hkey, Finmap.lookup_insert_of_ne _ hkey,
                h.fixedHosts key]
          · exact h

lemma readHosts_renders (h : Renders host cfg₀ cfg) (subnet : Setting) :
    Renders host (readHosts .big subnet cfg₀) (readHosts host subnet cfg) := by
  unfold readHosts
  cases subnet.member "hosts" with
  | none => exact h
  | some hosts =>
    simp only [parseHosts]
    induction hosts.elements generalizing cfg₀ cfg with
    | nil => exact h
    | cons entry rest ih => exact ih (parseHost_renders h entry)

/-- No option is given as a number. -/
def Unnumbered (options : Setting) : Prop :=
  ∀ members, options = .group members → ∀ m ∈ members, keyTagMapping m.1 ≠ none →
    ∀ v, m.2 ≠ .int v

lemma optionValue_eq (host : ByteOrder) {s : Setting} (h : ∀ v, s ≠ .int v) :
    optionValue host s = optionValue .big s := by
  cases s with
  | int v => exact absurd rfl (h v)
  | _ => rfl

lemma parseOption_renders (h : Renders host cfg₀ cfg) {setting : String × Setting}
    (hn : keyTagMapping setting.1 ≠ none → ∀ v, setting.2 ≠ .int v) :
    Relates (Renders host) (parseOption .big cfg₀ setting) (parseOption host cfg setting) := by
  unfold parseOption
  cases hk : keyTagMapping setting.1 with
  | none => exact .ok h
  | some tag =>
    simp only [optionValue_eq host (hn (by simp [hk]))]
    cases optionValue .big setting.2 with
    | error e => exact .error e
    | ok value => exact .ok { h with definedOptions := by rw [h.definedOptions] }

lemma readOptions_renders (h : Renders host cfg₀ cfg) {subnet : Setting}
    (hn : ∀ options, subnet.member "options" = some options → Unnumbered options) :
    Relates (Renders host) (readOptions .big subnet cfg₀) (readOptions host subnet cfg) := by
  have hmembers (members : List (String × Setting)) (hm : ∀ m ∈ members, keyTagMapping m.1 ≠ none →
      ∀ v, m.2 ≠ .int v) : Relates (Renders host) (members.foldlM (parseOption .big) cfg₀)
      (members.foldlM (parseOption host) cfg) := by
    induction members generalizing cfg₀ cfg with
    | nil => exact .ok h
    | cons m members ih =>
      obtain ⟨hhead, htail⟩ := List.forall_mem_cons.mp hm
      rw [List.foldlM_cons, List.foldlM_cons]
      exact (parseOption_renders h hhead).bind fun _ _ hr => ih hr htail
  unfold readOptions
  cases hs : subnet.member "options" with
  | none => exact .ok h
  | some options =>
    have hun := hn options hs
    unfold Config.parseOptions
    cases options with
    | group members => exact hmembers members (hun members rfl)
    | _ =>
      dsimp only
      split_ifs
      · exact .ok h
      · exact .error _

lemma readLeaseTime_renders (h : Renders host cfg₀ cfg) (subnet : Setting) :
    Renders host (readLeaseTime .big subnet cfg₀) (readLeaseTime host subnet cfg) := by
  refine { h with leaseTimeSeconds := rfl, definedOptions := ?_ }
  simp only [readLeaseTime, h.netmask, h.definedOptions, ntohl_htonl]
  rfl

lemma parseRest_renders (h : Renders host cfg₀ cfg) {subnet : Setting}
    (hn : ∀ options, subnet.member "options" = some options → Unnumbered options) :
    Relates (Renders host)
      (do
        checkNetRange cfg₀
        let cfg ← readOptions .big subnet (readHosts .big subnet cfg₀)
        return readLeaseTime .big subnet cfg)
      (do
        checkNetRange cfg
        let cfg ← readOptions host subnet (readHosts host subnet cfg)
        return readLeaseTime host subnet cfg) := by
  rw [checkNetRange_renders h]
  cases checkNetRange cfg₀ with
  | error e => exact .error e
  | ok _ =>
    refine (readOptions_renders (readHosts_renders h subnet) hn).bind fun _ _ hr => ?_
    exact .ok (readLeaseTime_renders hr subnet)

lemma getD_renders (s : List Char) {n₀ n : UInt32} (h : n = htonl host n₀) :
    (inetAton host s).getD n = htonl host ((inetAton .big s).getD n₀) := by
  rw [inetAton_big host, h]
  cases inetAton .big s <;> rfl

lemma parseSubnet_renders {u₀ u : SubnetConfiguration} (hu : Renders host u₀ u) {root : Setting}
    (hn : ∀ subnet, root.member "subnet" = some subnet →
      ∀ options, subnet.member "options" = some options → Unnumbered options) :
    Relates (Renders host) (parseSubnet .big u₀ root) (parseSubnet host u root) := by
  unfold parseSubnet
  cases hs : root.member "subnet" with
  | none => exact .error _
  | some subnet =>
    dsimp only
    split
    · refine parseRest_renders ⟨?_, ?_, ?_, ?_, ?_, ?_, ?_⟩ (hn subnet hs)
      · exact getD_renders _ hu.subnetAddress
      · exact getD_renders _ hu.rangeStart
      · exact getD_renders _ hu.rangeEnd
      · exact getD_renders _ hu.netmask
      · exact hu.leaseTimeSeconds
      · exact fun _ => by simp
      · rfl
    · exact .error _

/-- **The same configuration.** A file in which no option is given as a number is accepted by
machines of either byte order or refused by both for the same reason, and they hold the same
configuration then, each in its own representation. Where an address cannot be parsed what it was
before is kept, so the indeterminate contents on both machines are taken to correspond as well. -/
theorem same_configuration (host : ByteOrder) {u₀ u : SubnetConfiguration}
    (hu : Renders host u₀ u) (file : Except ConfigFault Setting) {c₀ c : ProgramConfiguration}
    (hc : RendersProgram host c₀ c)
    (hn : ∀ root, file = .ok root → ∀ subnet, root.member "subnet" = some subnet →
      ∀ options, subnet.member "options" = some options → Unnumbered options) :
    (parseConfiguration host u file c).1 = (parseConfiguration .big u₀ file c₀).1 ∧
      RendersProgram host (parseConfiguration .big u₀ file c₀).2
        (parseConfiguration host u file c).2 := by
  unfold parseConfiguration
  cases file with
  | error e => exact ⟨rfl, hc⟩
  | ok root =>
    have hs := parseSubnet_renders hu (hn root rfl)
    have haddr : (((root.lookupString "listen-address").bind (inetAton host)).getD c.address) =
        htonl host
          (((root.lookupString "listen-address").bind (inetAton .big)).getD c₀.address) := by
      cases root.lookupString "listen-address" with
      | none => exact hc.address
      | some s => exact getD_renders s hc.address
    simp only [hc.interface, hc.leaseFilePath, haddr]
    generalize (if (root.lookupString "listen-address").isSome then none
      else root.lookupString "interface") = interface
    generalize parseSubnet .big u₀ root = x₀, parseSubnet host u root = x at hs
    cases hs with
    | error e =>
      -- what was read before the subnet is refused has been stored
      split_ifs
      · exact ⟨rfl, hc.address, rfl, rfl, hc.subnetConfig⟩
      · exact ⟨rfl, rfl, rfl, rfl, hc.subnetConfig⟩
      · cases root.member "interface" with
        | none => exact ⟨rfl, rfl, rfl, rfl, hc.subnetConfig⟩
        | some s =>
          dsimp only
          cases s.asString <;> exact ⟨rfl, rfl, rfl, rfl, hc.subnetConfig⟩
    | ok h =>
      split_ifs
      · exact ⟨rfl, hc.address, rfl, rfl, hc.subnetConfig⟩
      · exact ⟨rfl, rfl, rfl, rfl, h⟩
      · cases root.member "interface" with
        | none => exact ⟨rfl, rfl, rfl, rfl, hc.subnetConfig⟩
        | some s =>
          dsimp only
          cases s.asString with
          | error e => exact ⟨rfl, rfl, rfl, rfl, hc.subnetConfig⟩
          | ok name => exact ⟨rfl, rfl, rfl, rfl, h⟩

lemma renders_zero (host : ByteOrder) : Renders host .zero .zero := by
  have hzero : 0 = htonl host 0 := ((Answer.htonl_eq_zero_iff host 0).mpr rfl).symm
  exact ⟨hzero, hzero, hzero, hzero, rfl, fun _ => rfl, rfl⟩

theorem same_configuration_example :
    (parseConfiguration .little .zero (.ok exampleConf) ⟨0, [], [], .zero⟩).1 =
        (parseConfiguration .big .zero (.ok exampleConf) ⟨0, [], [], .zero⟩).1 ∧
      RendersProgram .little (parseConfiguration .big .zero (.ok exampleConf) ⟨0, [], [], .zero⟩).2
        (parseConfiguration .little .zero (.ok exampleConf) ⟨0, [], [], .zero⟩).2 := by
  refine same_configuration .little (renders_zero .little) _
    ⟨by decide, rfl, rfl, renders_zero .little⟩ ?_
  intro root hroot subnet hsubnet options hoptions members hmembers m hm _ v hv
  cases hroot
  cases hsubnet
  cases hoptions
  cases hmembers
  simp only [List.mem_cons, List.not_mem_nil, or_false] at hm
  rcases hm with rfl | rfl <;> cases hv

/-! ### The handlers -/

variable (host) in
/-- The two destinations are the same on the wire. The address is, if it has been converted. -/
structure SameDestination (converted : Prop) (a₀ a : SockaddrIn) : Prop where
  port : a.sinPort = htons host a₀.sinPort
  address : converted → a.sinAddr = htonl host a₀.sinAddr

variable (host) in
structure SameReply (converted : Prop) (e₀ e : SockaddrIn × DhcpDatagram) : Prop where
  options : e.2.options = e₀.2.options
  bytes : ∀ entries, e.2.toByteVector host entries = e₀.2.toByteVector .big entries
  destination : SameDestination host converted e₀.1 e.1

variable (host) in
structure SameOutcome (converted : Prop) (o₀ o : Outcome) : Prop where
  result : o.result = o₀.result
  leases : o.leases = o₀.leases
  enqueued : List.Forall₂ (SameReply host converted) o₀.enqueued o.enqueued

variable {env : Env} {d : DhcpDatagram} {leases : LeaseTable} {serverIp : UInt32}
  {converted : Prop}

lemma sameOutcome_ret (host : ByteOrder) (converted : Prop) (leases : LeaseTable) :
    SameOutcome host converted (.ret leases) (.ret leases) := ⟨rfl, rfl, .nil⟩

lemma sameOutcome_throw (host : ByteOrder) (converted : Prop) (fault : Fault)
    (leases : LeaseTable) :
    SameOutcome host converted (.throw fault leases) (.throw fault leases) := ⟨rfl, rfl, .nil⟩

lemma sameOutcome_enqueue {dest₀ dest : Except Fault SockaddrIn} {reply₀ reply : DhcpDatagram}
    (hd : Relates (SameDestination host converted) dest₀ dest)
    (ho : reply.options = reply₀.options)
    (hb : ∀ entries, reply.toByteVector host entries = reply₀.toByteVector .big entries)
    (leases : LeaseTable) :
    SameOutcome host converted (.enqueue leases dest₀ reply₀) (.enqueue leases dest reply) := by
  cases hd with
  | error fault => exact sameOutcome_throw host converted fault leases
  | ok h => exact ⟨rfl, rfl, .cons ⟨ho, hb, h⟩ .nil⟩

lemma htons_zero (host : ByteOrder) : htons host 0 = 0 := by
  cases host <;> decide

lemma toByteVector_reply (host : ByteOrder) (serverIp : UInt32) (d : DhcpDatagram)
    (address : UInt32) (options : Options) (entries : List ((_ : OptionTag) × List UInt8)) :
    toByteVector host { createSkeletonReplyDatagram (held host serverIp d) with
      assignedIp := address, options := options } entries =
    toByteVector .big { createSkeletonReplyDatagram d with
      assignedIp := address, options := options } entries := by
  simp only [toByteVector, encodeHeader, createSkeletonReplyDatagram, held, htonl_ntohl, htons_zero]
  rfl

lemma getReplyDestination_same (cfg₀ cfg : SubnetConfiguration) (env : Env) (d : DhcpDatagram)
    (serverIp : UInt32) {address₀ address : UInt32}
    (hz : address = INADDR_ANY ↔ address₀ = INADDR_ANY)
    (hc : converted → env.brdaddr ≠ none ∧ (Unicast d address₀ → address = htonl host address₀)) :
    Relates (SameDestination host converted) (getReplyDestination .big cfg₀ env d address₀)
      (getReplyDestination host cfg (atHost host env) (held host serverIp d) address) := by
  have hcast : Unicast (held host serverIp d) address ↔ Unicast d address₀ := by
    simp only [Unicast, flags_held, hwaddrLen_held, hwAddr_held, hz]
  unfold getReplyDestination
  by_cases hu : Unicast d address₀
  · rw [if_neg hu, if_neg (hcast.mpr hu)]
    by_cases hlen : 14 < d.hwaddrLen
    · rw [hwaddrLen_held, if_pos hlen, if_pos hlen]
      exact .error _
    · rw [hwaddrLen_held, if_neg hlen, if_neg hlen]
      exact .ok ⟨rfl, fun hcv => (hc hcv).2 hu⟩
  · rw [if_pos (not_not.mp hu), if_pos (not_not.mp (mt hcast.mp hu))]
    simp only [atHost]
    cases hbrd : env.brdaddr with
    | none => exact .ok ⟨rfl, fun hcv => absurd hbrd (hc hcv).1⟩
    | some brdaddr => exact .ok ⟨rfl, fun _ => rfl⟩

lemma setRequestedOptions_same (h : Renders host cfg₀ cfg) (d : DhcpDatagram) (options : Options) :
    setRequestedOptions cfg (held host serverIp d) options =
      setRequestedOptions cfg₀ d options := by
  have hone : setRequestedOption cfg = setRequestedOption cfg₀ := by
    funext options tag
    simp only [setRequestedOption, h.definedOptions]
  simp only [setRequestedOptions, hone, options_held]

lemma setLeaseTime_same (h : Renders host cfg₀ cfg) (options : Options) :
    setLeaseTime cfg options = setLeaseTime cfg₀ options := by
  simp only [setLeaseTime, h.leaseTimeSeconds]

lemma wantedAddress_same (h : Renders host cfg₀ cfg) (env : Env) (d : DhcpDatagram)
    (leases : LeaseTable) :
    wantedAddress host cfg (atHost host env) (held host serverIp d) leases =
      wantedAddress .big cfg₀ env d leases := by
  simp only [wantedAddress, h.rangeStart, h.rangeEnd, ntohl_htonl, options_held, hwAddr_held,
    clientIp_held, now_atHost]
  rfl

lemma offerAddress_same (h : Renders host cfg₀ cfg) (hwaddr : EtherAddr) (wanted : UInt32)
    (leases : LeaseTable) :
    offerAddress host cfg hwaddr wanted leases = offerAddress .big cfg₀ hwaddr wanted leases := by
  simp only [offerAddress, h.rangeStart, h.rangeEnd, h.fixedHosts, ntohl_htonl]
  split_ifs
  · cases cfg₀.fixedHosts.lookup hwaddr with
    | none => rfl
    | some reserved =>
      simp only [Option.map_some, ntohl_htonl]
      rfl
  · rfl

lemma htonl_any_iff (host : ByteOrder) (address : UInt32) :
    htonl host address = INADDR_ANY ↔ address = INADDR_ANY := Answer.htonl_eq_zero_iff host address

lemma requestHwaddr_held (d : DhcpDatagram) :
    requestHwaddr (held host serverIp d) = requestHwaddr d := rfl

lemma handleDiscovery_same (h : Renders host cfg₀ cfg) (env : Env) (d : DhcpDatagram)
    (leases : LeaseTable) (hc : converted → env.brdaddr ≠ none) :
    SameOutcome host converted (handleDiscovery .big cfg₀ env d leases)
      (handleDiscovery host cfg (atHost host env) (held host serverIp d) leases) := by
  have hoptions (options : Options) :
      offerOptions cfg (held host serverIp d) options = offerOptions cfg₀ d options := by
    simp only [offerOptions, setRequestedOptions_same h, setLeaseTime_same h, recvAddr_held]
  unfold handleDiscovery
  simp only [requestHwaddr_held, wantedAddress_same h, offerAddress_same h, hoptions, purge_atHost,
    stamp_atHost, hwAddr_held]
  cases requestHwaddr d with
  | error fault => exact sameOutcome_throw host converted fault leases
  | ok hwaddr =>
    dsimp only
    cases wantedAddress .big cfg₀ env d (updateLeases env.purge leases) with
    | error fault => exact sameOutcome_throw host converted fault _
    | ok x =>
      obtain ⟨wanted, options⟩ := x
      dsimp only
      cases offerAddress .big cfg₀ hwaddr wanted (updateLeases env.purge leases) with
      | none => exact sameOutcome_ret host converted _
      | some offer =>
        have hbytes := toByteVector_reply host serverIp d offer (offerOptions cfg₀ d options)
        refine sameOutcome_enqueue ?_ ?_ hbytes _
        · exact getReplyDestination_same cfg₀ cfg env d serverIp (htonl_any_iff host offer)
            fun hcv => ⟨hc hcv, fun _ => rfl⟩
        · rfl

lemma inSubnet_same (h : Renders host cfg₀ cfg) (address : UInt32) :
    inSubnet host cfg address = inSubnet .big cfg₀ address := by
  simp only [inSubnet, h.netmask, h.subnetAddress, and_htonl_eq_iff]
  rfl

lemma handleRequest_same (h : Renders host cfg₀ cfg) (env : Env) (d : DhcpDatagram)
    (leases : LeaseTable) (hc : converted → env.brdaddr ≠ none) :
    SameOutcome host converted (handleRequest .big cfg₀ env d leases)
      (handleRequest host cfg (atHost host env) (held host serverIp d) leases) := by
  have hdest : Relates (SameDestination host converted)
      (getReplyDestination .big cfg₀ env d INADDR_ANY)
      (getReplyDestination host cfg (atHost host env) (held host serverIp d) INADDR_ANY) :=
    getReplyDestination_same cfg₀ cfg env d serverIp Iff.rfl
      fun hcv => ⟨hc hcv, fun hu => absurd hu (by simp [Unicast])⟩
  have hnak (leases : LeaseTable) : SameOutcome host converted
      (.enqueue leases (getReplyDestination .big cfg₀ env d INADDR_ANY) (nak d))
      (.enqueue leases (getReplyDestination host cfg (atHost host env) (held host serverIp d)
        INADDR_ANY) (nak (held host serverIp d))) := by
    have hbytes := toByteVector_reply host serverIp d INADDR_ANY
      ((∅ : Options).insert DHCP_MESSAGE_TYPE [DHCP_TYPE_NAK])
    refine sameOutcome_enqueue hdest ?_ hbytes leases
    rfl
  have hoptions : ackOptions cfg (held host serverIp d) = ackOptions cfg₀ d := by
    simp only [ackOptions, setRequestedOptions_same h, setLeaseTime_same h, recvAddr_held]
  have hrequested : requestedAddress (held host serverIp d) = requestedAddress d := rfl
  unfold handleRequest
  simp only [hrequested, inSubnet_same h, purge_atHost, stamp_atHost, hwAddr_held,
    h.leaseTimeSeconds]
  cases requestedAddress d with
  | error fault => exact sameOutcome_throw host converted fault leases
  | ok requested =>
    dsimp only
    split_ifs with hin
    · cases (updateLeases env.purge leases).find? d.hwAddr with
      | none => exact hnak _
      | some lease =>
        dsimp only
        split_ifs with haddr
        · have hbytes := toByteVector_reply host serverIp d requested (ackOptions cfg₀ d)
          rw [Daemon.ack, Daemon.ack, hoptions]
          refine sameOutcome_enqueue hdest ?_ hbytes _
          rfl
        · exact hnak _
    · exact hnak leases

lemma handleInform_same (h : Renders host cfg₀ cfg) (env : Env) (d : DhcpDatagram)
    (leases : LeaseTable)
    (hc : converted → env.brdaddr ≠ none ∧ ¬ Unicast d d.clientIp) :
    SameOutcome host converted (handleInform .big cfg₀ env d leases)
      (handleInform host cfg (atHost host env) (held host serverIp d) leases) := by
  unfold handleInform
  simp only [setRequestedOptions_same h, clientIp_held]
  have hbytes := toByteVector_reply host serverIp d INADDR_ANY
    ((setRequestedOptions cfg₀ d ∅).erase LEASE_TIME)
  refine sameOutcome_enqueue ?_ ?_ hbytes _
  · exact getReplyDestination_same cfg₀ cfg env d serverIp Iff.rfl
      fun hcv => ⟨(hc hcv).1, fun hu => absurd hu (hc hcv).2⟩
  · rfl

/-- The destination of the reply is converted to network order: the broadcast address is the one
of the interface, and the packet is not an INFORM that is answered by unicast. -/
def Converted (ev : Daemon.Event) : Prop :=
  ev.env.brdaddr ≠ none ∧
    (IsMessage ev.datagram DHCP_TYPE_INFORM → ¬ Unicast ev.datagram ev.datagram.clientIp)

/-- **One packet** is handled in the same way. -/
theorem handleRecv_same (h : Renders host cfg₀ cfg) (env : Env) (d : DhcpDatagram)
    (serverIp : UInt32) (leases : LeaseTable) :
    SameOutcome host (Converted ⟨env, d⟩) (handleRecv .big cfg₀ env d leases)
      (handleRecv host cfg (atHost host env) (held host serverIp d) leases) := by
  unfold handleRecv
  by_cases hlen : 16 < d.hwaddrLen
  · simp only [hwaddrLen_held, hlen, ↓reduceIte]
    exact sameOutcome_throw host _ _ leases
  by_cases hop : d.opcode = 1
  · simp only [hwaddrLen_held, opcode_held, options_held, hlen, hop, ne_eq, not_true_eq_false,
      ↓reduceIte]
    cases ho : d.options.lookup DHCP_MESSAGE_TYPE with
    | none => exact sameOutcome_throw host _ _ leases
    | some value =>
      cases value with
      | nil => exact sameOutcome_throw host _ _ leases
      | cons type rest =>
        simp only [Option.getD_some]
        split_ifs with hd hr hl hi hdec
        · exact handleDiscovery_same h env d leases And.left
        · exact handleRequest_same h env d leases And.left
        · exact sameOutcome_ret host _ _
        · exact handleInform_same h env d leases fun hc => ⟨hc.1, hc.2 ⟨hop, rest, hi ▸ ho⟩⟩
        · simp only [handleDecline, options_held]
          cases d.options.lookup REQUESTED_IP_ADDRESS with
          | none => exact sameOutcome_throw host _ _ leases
          | some bytes =>
            dsimp only
            cases toNumber 32 bytes with
            | error fault => exact sameOutcome_throw host _ fault leases
            | ok declined => exact sameOutcome_ret host _ _
        · exact sameOutcome_ret host _ leases
  · simp only [hwaddrLen_held, opcode_held, hlen, hop, ne_eq, not_false_eq_true, ↓reduceIte]
    exact sameOutcome_ret host _ leases

/-! ### The lease file -/

lemma leaseLine_same (host : ByteOrder) (entry : HwAddr × Lease) :
    leaseLine host entry = leaseLine .big entry := by
  simp only [leaseLine, inetNtoa, ntohl_htonl]

lemma writeLeases_same (host : ByteOrder) (time : UInt64) (leases : LeaseTable) :
    writeLeases host time leases = writeLeases .big time leases := by
  simp only [writeLeases, leaseLine_same host]

lemma loadLine_same (host : ByteOrder) (uninit : HwAddr) (time : UInt64) (line : List Char)
    (leases : LeaseTable) :
    loadLine host uninit time line leases = loadLine .big uninit time line leases := by
  have haddr (ipaddr : List Char) :
      ntohl host ((inetAton host ipaddr).getD 0) = ntohl .big ((inetAton .big ipaddr).getD 0) := by
    have hzero : 0 = htonl host 0 := ((Answer.htonl_eq_zero_iff host 0).mpr rfl).symm
    rw [getD_renders ipaddr hzero, ntohl_htonl]
    rfl
  simp only [loadLine, haddr]

lemma loadLeases_same (host : ByteOrder) (uninit : ℕ → HwAddr) (time : UInt64) (file : List Char)
    (leases : LeaseTable) :
    loadLeases host uninit time file leases = loadLeases .big uninit time file leases := by
  simp only [loadLeases]
  induction Text.lines file generalizing leases with
  | nil => rfl
  | cons line rest ih => simp only [loadLines, loadLine_same host, ih]

/-! ### The lives of the program -/

/-- What happens to the program, whatever machine it is on: the packets are bytes, and the
broadcast address is a number. -/
inductive Input
  | start (time : UInt64) (uninit : ℕ → HwAddr)
  | arrival (a : Socket.Arrival)
  | stop (time : UInt64)
  | cut (time : UInt64) (written : ℕ)
  | kill

/-- What this is on the machine. -/
def happenings (host : ByteOrder) (serverIp : UInt32) : Input → List Restart.Happening
  | .start time uninit => [.start time uninit]
  | .arrival a => (handed host serverIp { a with env := atHost host a.env }).map .packet
  | .stop time => [.stop time]
  | .cut time written => [.cut time written]
  | .kill => [.kill]

variable (host) in
inductive SameHappening : Restart.Happening → Restart.Happening → Prop
  | start (time : UInt64) (uninit : ℕ → HwAddr) :
    SameHappening (.start time uninit) (.start time uninit)
  | packet (env : Env) (d : DhcpDatagram) (serverIp : UInt32) :
    SameHappening (.packet ⟨env, d⟩) (.packet ⟨atHost host env, held host serverIp d⟩)
  | stop (time : UInt64) : SameHappening (.stop time) (.stop time)
  | cut (time : UInt64) (written : ℕ) : SameHappening (.cut time written) (.cut time written)
  | kill : SameHappening .kill .kill

lemma atHost_big (env : Env) : atHost .big env = env := by
  obtain ⟨_, _, _, brdaddr, _, _, _⟩ := env
  cases brdaddr <;> rfl

lemma fromBuffer_same (host : ByteOrder) (uninit : DhcpDatagram) (buffer : List UInt8) :
    fromBuffer host uninit buffer =
      (fromBuffer .big uninit buffer).map fun d => held host d.serverIp d := by
  unfold fromBuffer
  split_ifs
  · rfl
  · cases parseOptions (buffer.drop 240) <;> rfl

lemma happenings_same (host : ByteOrder) (serverIp₀ serverIp : UInt32) (input : Input) :
    List.Forall₂ (SameHappening host) (happenings .big serverIp₀ input)
      (happenings host serverIp input) := by
  cases input with
  | start time uninit => exact .cons (.start time uninit) .nil
  | stop time => exact .cons (.stop time) .nil
  | cut time written => exact .cons (.cut time written) .nil
  | kill => exact .cons .kill .nil
  | arrival a =>
    simp only [happenings, handed, atHost_big]
    cases a.received with
    | wouldBlock => exact .nil
    | failed => exact .nil
    | packet data iface =>
      cases iface with
      | error fault => exact .nil
      | ok iface =>
        simp only [fromBuffer_same host]
        cases fromBuffer .big a.uninit data.bytes with
        | error fault => exact .nil
        | ok d => exact .cons (.packet _ _ _) .nil

/-- The replies to a packet, next to what happened. -/
def asked (host : ByteOrder) (cfg : SubnetConfiguration) (p : Restart.Program)
    (e : Restart.Happening) : Restart.Happening × List (SockaddrIn × DhcpDatagram) :=
  (e, Restart.answers host cfg p e)

/-- A packet whose reply has its destination converted. -/
def ConvertedAt : Restart.Happening → Prop
  | .packet ev => Converted ev
  | _ => True

variable (host) in
/-- The replies to the same packet are the same on the wire. -/
def SameAnswers (x₀ x : Restart.Happening × List (SockaddrIn × DhcpDatagram)) : Prop :=
  List.Forall₂ (SameReply host (ConvertedAt x₀.1)) x₀.2 x.2

lemma step_same (h : Renders host cfg₀ cfg) (p₀ p : Restart.Program) (e₀ e : Restart.Happening)
    (hp : p₀ = p) (he : SameHappening host e₀ e) :
    Restart.step .big cfg₀ p₀ e₀ = Restart.step host cfg p e ∧
      SameAnswers host (asked .big cfg₀ p₀ e₀) (asked host cfg p e) := by
  subst hp
  cases he with
  | start time uninit =>
    refine ⟨?_, .nil⟩
    simp only [Restart.step, loadLeases_same host]
  | stop time =>
    refine ⟨?_, .nil⟩
    simp only [Restart.step, writeLeases_same host]
  | cut time written =>
    refine ⟨?_, .nil⟩
    simp only [Restart.step, writeLeases_same host]
  | kill => exact ⟨rfl, .nil⟩
  | packet env d serverIp =>
    cases hd : p₀.daemon with
    | none =>
      simp only [Restart.step, SameAnswers, asked, Restart.answers, hd]
      exact ⟨trivial, .nil⟩
    | some leases =>
      have hsame := handleRecv_same h env d serverIp leases
      -- a packet ends both programs or none
      have hsurvives :
          Survives host cfg ⟨leases, p₀.clock⟩ ⟨atHost host env, held host serverIp d⟩ ↔
            Survives .big cfg₀ ⟨leases, p₀.clock⟩ ⟨env, d⟩ := by
        simp only [Survives, handle, hsame.result]
      simp only [Restart.step, SameAnswers, asked, Restart.answers, hd, hsurvives, Option.elim]
      refine ⟨?_, hsame.enqueued⟩
      simp only [handle, hsame.leases, stamp_atHost]

/-- **The byte order of the machine cannot be seen.** Two machines with the same configuration
start from the same leases, or the same lease file, and the same happens to the program on both:
packets of the same bytes arrive at the same times, it is stopped, killed, cut off while it writes
the file, and started again. What the program reads of indeterminate contents is taken to
correspond as well. Then at any time both have the same leases and the same lease file,
and have sent replies of the same bytes, to the same destinations wherever these are converted
to network order. -/
theorem byte_order_invisible (host : ByteOrder) (h : Renders host cfg₀ cfg)
    (serverIp₀ serverIp : UInt32) (p : Restart.Program) (inputs : List Input) :
    let es₀ := inputs.flatMap (happenings .big serverIp₀)
    let es := inputs.flatMap (happenings host serverIp)
    run (Restart.step .big cfg₀) p es₀ = run (Restart.step host cfg) p es ∧
      List.Forall₂ (SameAnswers host) (outs (Restart.step .big cfg₀) (asked .big cfg₀) p es₀)
        (outs (Restart.step host cfg) (asked host cfg) p es) := by
  intro es₀ es
  have hes : List.Forall₂ (SameHappening host) es₀ es := by
    induction inputs with
    | nil => exact .nil
    | cons input inputs ih =>
      exact List.rel_append (happenings_same host serverIp₀ serverIp input) ih
  exact lockstep (step_same h) rfl hes

def exampleBig : SubnetConfiguration where
  subnetAddress := 0x7f000a00
  rangeStart := 0x7f000a0a
  rangeEnd := 0x7f000abe
  netmask := 0xffff0000
  leaseTimeSeconds := 3600
  fixedHosts := ((∅ : Finmap fun _ : EtherAddr => UInt32).insert exampleOwner 0x7f000a0a).insert
    exampleOwner' 0x7f000a14
  definedOptions := exampleConfig.definedOptions

lemma renders_exampleBig : Renders .little exampleBig exampleConfig := by
  refine ⟨by decide, by decide, by decide, by decide, rfl, fun mac => ?_, rfl⟩
  simp only [exampleBig, exampleConfig]
  by_cases hmac' : mac = exampleOwner'
  · rw [hmac', Finmap.lookup_insert, Finmap.lookup_insert]
    decide
  · rw [Finmap.lookup_insert_of_ne _ hmac', Finmap.lookup_insert_of_ne _ hmac']
    by_cases hmac : mac = exampleOwner
    · rw [hmac, Finmap.lookup_insert, Finmap.lookup_insert]
      decide
    · rw [Finmap.lookup_insert_of_ne _ hmac, Finmap.lookup_insert_of_ne _ hmac]
      rfl

def shortLife : List Input :=
  [.start 100 fun _ => HwAddr.zero,
   .arrival ⟨blank, at100, .packet Socket.informPacket (.ok (0x7f000001, "lo"))⟩, .stop 110]

theorem byte_order_invisible_shortLife :
    let es₀ := shortLife.flatMap (happenings .big 0)
    let es := shortLife.flatMap (happenings .little 0)
    run (Restart.step .big exampleBig) ⟨none, [], 0⟩ es₀ =
        run (Restart.step .little exampleConfig) ⟨none, [], 0⟩ es ∧
      List.Forall₂ (SameAnswers .little)
        (outs (Restart.step .big exampleBig) (asked .big exampleBig) ⟨none, [], 0⟩ es₀)
        (outs (Restart.step .little exampleConfig) (asked .little exampleConfig)
          ⟨none, [], 0⟩ es) :=
  byte_order_invisible .little renders_exampleBig 0 0 _ shortLife

end TinyDhcpd.Portability
