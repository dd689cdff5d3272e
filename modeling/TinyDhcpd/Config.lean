import TinyDhcpd.Inet

/-!
The configuration of the server and how it is read from a configuration file.

The file is parsed by libconfig; what its interface shows of the result is the tree of
settings below. An address that is not well formed is not reported: the field that should
receive it keeps the contents it had before.
-/

namespace TinyDhcpd

open Bytes Inet OptionTag

/-- The subnet that is served. The addresses are `in_addr`s, in network order; `fixedHosts`
holds the reservations as `contains` and `operator[]` find them. -/
structure SubnetConfiguration where
  subnetAddress : UInt32
  rangeStart : UInt32
  rangeEnd : UInt32
  netmask : UInt32
  leaseTimeSeconds : UInt32
  fixedHosts : Finmap fun _ : EtherAddr => UInt32
  definedOptions : Options
  deriving DecidableEq

def SubnetConfiguration.zero : SubnetConfiguration := ⟨0, 0, 0, 0, 0, ∅, ∅⟩

/-- The fields of `ProgramConfiguration` that reading the file can change. -/
structure ProgramConfiguration where
  address : UInt32
  interface : List Char
  leaseFilePath : List Char
  subnetConfig : SubnetConfiguration

namespace Config

inductive Setting
  | int (v : ℤ)
  | int64 (v : ℤ)
  | float (text : List Char)
  | boolean (b : Bool)
  | string (s : List Char)
  | array (elements : List Setting)
  | list (elements : List Setting)
  | group (members : List (String × Setting))

inductive ConfigFault
  | parseException
  | fileIOException
  | settingNotFound (path : String)
  | settingType
  | logicError
  | invalidArgument (what : String)
  deriving DecidableEq

namespace Setting

def member (s : Setting) (name : String) : Option Setting :=
  match s with
  | group members => members.lookup name
  | _ => none

/-- What an iterator over the setting visits; a scalar has no elements. -/
def elements : Setting → List Setting
  | array es => es
  | list es => es
  | group ms => ms.map Prod.snd
  | _ => []

/-- The conversion to a string. -/
def asString : Setting → Except ConfigFault (List Char)
  | string s => .ok s
  | _ => .error .settingType

/-- `lookupValue` into a `std::string`. -/
def lookupString (s : Setting) (name : String) : Option (List Char) :=
  match s.member name with
  | some (string v) => some v
  | _ => none

/-- `lookupValue` into an `unsigned int`; negative numbers are read as zero. -/
def lookupUnsigned (s : Setting) (name : String) : Option UInt32 :=
  match s.member name with
  | some (int v) => some (UInt32.ofNat v.toNat)
  | _ => none

end Setting

def DEFAULT_LEASE_TIME : UInt32 := 3600

def keyTagMapping (key : String) : Option OptionTag :=
  if key = "routers" then some ROUTERS
  else if key = "domain-name-servers" then some DNS_SERVER
  else none

/-- `check_net_range`. The two addresses its messages end in come out of one buffer of
`inet_ntoa` and are left out. -/
def checkNetRange (cfg : SubnetConfiguration) : Except ConfigFault Unit :=
  let network := cfg.subnetAddress &&& cfg.netmask
  if cfg.rangeStart &&& cfg.netmask ≠ network then
    .error (.invalidArgument "Either the range start or the net address is invalid!")
  else if cfg.rangeEnd &&& cfg.netmask ≠ network then
    .error (.invalidArgument "Either the range end or the net address is invalid!")
  else .ok ()

/-- One group of the hosts list. Groups without both settings, with a malformed address or
outside of the subnet are skipped. The map is taken to tell MAC addresses apart; `FixedHosts`
says when it does. -/
def parseHost (host : ByteOrder) (cfg : SubnetConfiguration) (entry : Setting) :
    SubnetConfiguration :=
  match entry.lookupString "ether", entry.lookupString "fixed-address" with
  | some ether, some fixed =>
    match etherAton ether, inetAton host fixed with
    | some mac, some addr =>
      if addr &&& cfg.netmask ≠ cfg.subnetAddress &&& cfg.netmask then cfg
      else { cfg with fixedHosts := cfg.fixedHosts.insert mac addr }
    | _, _ => cfg
  | _, _ => cfg

def parseHosts (host : ByteOrder) (hosts : Setting) (cfg : SubnetConfiguration) :
    SubnetConfiguration :=
  hosts.elements.foldl (parseHost host) cfg

/-- `parse_ip_address`. -/
def parseIpAddress (s : List Char) : List UInt8 := toByteArray (inetNetwork s).toBitVec

/-- The value of an option of the options group, in the bytes that are sent. -/
def optionValue (host : ByteOrder) : Setting → Except ConfigFault (List UInt8)
  | .int v => .ok (toByteArray (htons host (UInt16.ofNat (v % 65536).toNat)).toBitVec)
  | .array es => do
    let addresses ← es.mapM Setting.asString
    return addresses.flatMap parseIpAddress
  | s => do
    let address ← s.asString
    return parseIpAddress address

/-- One setting of the options group; keys that are not known are skipped. -/
def parseOption (host : ByteOrder) (cfg : SubnetConfiguration) (setting : String × Setting) :
    Except ConfigFault SubnetConfiguration :=
  match keyTagMapping setting.1 with
  | none => .ok cfg
  | some tag => do
    let value ← optionValue host setting.2
    return { cfg with definedOptions := cfg.definedOptions.insert tag value }

/-- `parse_options` of the configuration. The elements of anything but a group have no name,
and a `std::string` is not made from a null pointer. -/
def parseOptions (host : ByteOrder) (options : Setting) (cfg : SubnetConfiguration) :
    Except ConfigFault SubnetConfiguration :=
  match options with
  | .group members => members.foldlM (parseOption host) cfg
  | s => if s.elements.isEmpty then .ok cfg else .error .logicError

/-- The hosts list of the subnet, if there is one. -/
def readHosts (host : ByteOrder) (subnet : Setting) (cfg : SubnetConfiguration) :
    SubnetConfiguration :=
  match subnet.member "hosts" with
  | some hosts => parseHosts host hosts cfg
  | none => cfg

/-- The options group of the subnet, if there is one. -/
def readOptions (host : ByteOrder) (subnet : Setting) (cfg : SubnetConfiguration) :
    Except ConfigFault SubnetConfiguration :=
  match subnet.member "options" with
  | some options => parseOptions host options cfg
  | none => .ok cfg

/-- The options every configuration defines, and the lease time. -/
def readLeaseTime (host : ByteOrder) (subnet : Setting) (cfg : SubnetConfiguration) :
    SubnetConfiguration :=
  let leaseTime := (subnet.lookupUnsigned "lease-time").getD DEFAULT_LEASE_TIME
  { cfg with
    definedOptions :=
      (cfg.definedOptions.insert SUBNET_MASK (toByteArray (ntohl host cfg.netmask).toBitVec)).insert
        LEASE_TIME (toByteArray leaseTime.toBitVec)
    leaseTimeSeconds := leaseTime }

/-- The part of `parse_configuration` that reads the subnet. The address fields of the local
`subnet_cfg` start out with indeterminate contents `uninit`. -/
def parseSubnet (host : ByteOrder) (uninit : SubnetConfiguration) (root : Setting) :
    Except ConfigFault SubnetConfiguration :=
  match root.member "subnet" with
  | none => .error (.invalidArgument "No subnet declaration found!")
  | some subnet =>
    match subnet.lookupString "net-address", subnet.lookupString "netmask",
      subnet.lookupString "range-start", subnet.lookupString "range-end" with
    | some netAddr, some netmask, some rangeStart, some rangeEnd => do
      let cfg : SubnetConfiguration :=
        { subnetAddress := (inetAton host netAddr).getD uninit.subnetAddress
          netmask := (inetAton host netmask).getD uninit.netmask
          rangeStart := (inetAton host rangeStart).getD uninit.rangeStart
          rangeEnd := (inetAton host rangeEnd).getD uninit.rangeEnd
          leaseTimeSeconds := uninit.leaseTimeSeconds
          fixedHosts := ∅
          definedOptions := ∅ }
      checkNetRange cfg
      let cfg ← readOptions host subnet (readHosts host subnet cfg)
      return readLeaseTime host subnet cfg
    | _, _, _, _ => .error (.invalidArgument "Invalid subnet declaration!")

/-- `parse_configuration`: the outcome and the configuration it leaves behind. `file` is what
reading and parsing the file gave. -/
def parseConfiguration (host : ByteOrder) (uninit : SubnetConfiguration)
    (file : Except ConfigFault Setting) (optval : ProgramConfiguration) :
    Except ConfigFault Unit × ProgramConfiguration :=
  match file with
  | .error e => (.error e, optval)
  | .ok root =>
    let listen := root.lookupString "listen-address"
    -- the interface is looked up here only when there is no listen address
    let interface := if listen.isSome then none else root.lookupString "interface"
    let optval := { optval with interface := interface.getD optval.interface }
    if listen.isNone ∧ interface.isNone then
      (.error (.invalidArgument "One of (listen-address|interface) must be given!"), optval)
    else
      let optval := { optval with
        leaseFilePath := (root.lookupString "lease-file").getD optval.leaseFilePath
        address := (listen.bind (inetAton host)).getD optval.address }
      let named : Except ConfigFault (List Char) :=
        if optval.interface ≠ [] then .ok optval.interface
        else match root.member "interface" with
          | none => .error (.settingNotFound "interface")
          | some s => s.asString
      match named with
      | .error e => (.error e, optval)
      | .ok interface =>
        let optval := { optval with interface := interface }
        match parseSubnet host uninit root with
        | .error e => (.error e, optval)
        | .ok cfg => (.ok (), { optval with subnetConfig := cfg })

/-- A configuration that `parse_configuration` accepts. -/
def Accepted (host : ByteOrder) (cfg : SubnetConfiguration) : Prop :=
  ∃ uninit file optval, (parseConfiguration host uninit file optval).1 = .ok () ∧
    (parseConfiguration host uninit file optval).2.subnetConfig = cfg

/-- A configuration a `Daemon` is built with: one that was accepted, or the empty one, with
which `main` goes on after an `std::invalid_argument`. -/
def Served (host : ByteOrder) (cfg : SubnetConfiguration) : Prop :=
  cfg = .zero ∨ Accepted host cfg

/-! ### The options an accepted configuration defines -/

/-- The tags `parse_configuration` can give a value to. -/
def definable : List OptionTag := [SUBNET_MASK, ROUTERS, DNS_SERVER, LEASE_TIME]

def OnlyDefinable (m : Options) : Prop := ∀ tag ∈ m, tag ∈ definable

lemma OnlyDefinable.insert {m : Options} (h : OnlyDefinable m) {tag : OptionTag}
    (ht : tag ∈ definable) (value : List UInt8) : OnlyDefinable (m.insert tag value) := by
  intro t hmem
  rcases Finmap.mem_insert.mp hmem with rfl | hmem
  · exact ht
  · exact h t hmem

lemma keyTagMapping_definable {key : String} {tag : OptionTag} (h : keyTagMapping key = some tag) :
    tag ∈ definable := by
  unfold keyTagMapping at h
  split_ifs at h <;> cases h <;> decide

lemma bind_eq_ok {ε α β : Type} {x : Except ε α} {f : α → Except ε β} {b : β} :
    (x >>= f) = .ok b ↔ ∃ a, x = .ok a ∧ f a = .ok b := by
  cases x <;> simp [bind, Except.bind]

lemma bind_eq_error {ε α β : Type} {x : Except ε α} {f : α → Except ε β} {e : ε} :
    (x >>= f) = .error e ↔ x = .error e ∨ ∃ a, x = .ok a ∧ f a = .error e := by
  cases x <;> simp [bind, Except.bind]

lemma readHosts_induction {P : SubnetConfiguration → Prop} {host : ByteOrder}
    (hstep : ∀ cfg entry, P cfg → P (parseHost host cfg entry)) (subnet : Setting)
    {cfg : SubnetConfiguration} (h : P cfg) : P (readHosts host subnet cfg) := by
  unfold readHosts parseHosts
  split
  · rename_i hosts _
    induction hosts.elements generalizing cfg with
    | nil => exact h
    | cons e es ih => exact ih (hstep cfg e h)
  · exact h

lemma readOptions_induction {P : SubnetConfiguration → Prop} {host : ByteOrder}
    (hstep : ∀ cfg cfg' setting, parseOption host cfg setting = .ok cfg' → P cfg → P cfg')
    {subnet : Setting} {cfg cfg' : SubnetConfiguration}
    (hr : readOptions host subnet cfg = .ok cfg') (h : P cfg) : P cfg' := by
  have hfold : ∀ (members : List (String × Setting)) (cfg : SubnetConfiguration), P cfg →
      members.foldlM (parseOption host) cfg = .ok cfg' → P cfg' := by
    intro members
    induction members with
    | nil => exact fun cfg h hr => Except.ok.inj hr ▸ h
    | cons s ss ih =>
      intro cfg h hr
      obtain ⟨mid, hmid, hrest⟩ := bind_eq_ok.mp hr
      exact ih mid (hstep cfg mid s hmid h) hrest
  unfold readOptions parseOptions at hr
  split at hr
  · split at hr
    · exact hfold _ cfg h hr
    · split_ifs at hr
      exact Except.ok.inj hr ▸ h
  · exact Except.ok.inj hr ▸ h

lemma parseHost_definedOptions (host : ByteOrder) (cfg : SubnetConfiguration) (entry : Setting) :
    (parseHost host cfg entry).definedOptions = cfg.definedOptions := by
  unfold parseHost
  split
  · split
    · split_ifs <;> rfl
    · rfl
  · rfl

lemma parseOption_onlyDefinable {host : ByteOrder} {cfg cfg' : SubnetConfiguration}
    {setting : String × Setting} (h : parseOption host cfg setting = .ok cfg')
    (hc : OnlyDefinable cfg.definedOptions) : OnlyDefinable cfg'.definedOptions := by
  unfold parseOption at h
  cases hk : keyTagMapping setting.1 with
  | none =>
    simp only [hk, Except.ok.injEq] at h
    exact h ▸ hc
  | some tag =>
    simp only [hk] at h
    obtain ⟨value, -, hv⟩ := bind_eq_ok.mp h
    obtain rfl := Except.ok.inj hv
    exact hc.insert (keyTagMapping_definable hk) value

lemma parseSubnet_onlyDefinable {host : ByteOrder} {uninit cfg : SubnetConfiguration}
    {root : Setting} (h : parseSubnet host uninit root = .ok cfg) :
    OnlyDefinable cfg.definedOptions := by
  unfold parseSubnet at h
  split at h
  · cases h
  · split at h
    · obtain ⟨-, -, h⟩ := bind_eq_ok.mp h
      obtain ⟨mid, hmid, h⟩ := bind_eq_ok.mp h
      obtain rfl := Except.ok.inj h
      have hm : OnlyDefinable mid.definedOptions := by
        refine readOptions_induction (P := fun cfg => OnlyDefinable cfg.definedOptions)
          (fun _ _ _ => parseOption_onlyDefinable) hmid ?_
        refine readHosts_induction (P := fun cfg => OnlyDefinable cfg.definedOptions) ?_ _ ?_
        · exact fun cfg entry h => parseHost_definedOptions host cfg entry ▸ h
        · exact fun tag ht => absurd ht Finmap.notMem_empty
      exact (hm.insert (by decide) _).insert (by decide) _
    · cases h

lemma parseSubnet_of_ok {host : ByteOrder} {uninit : SubnetConfiguration}
    {file : Except ConfigFault Setting} {optval : ProgramConfiguration}
    (h : (parseConfiguration host uninit file optval).1 = .ok ()) :
    ∃ root, parseSubnet host uninit root =
      .ok (parseConfiguration host uninit file optval).2.subnetConfig := by
  cases file with
  | error e => cases h
  | ok root =>
    refine ⟨root, ?_⟩
    revert h
    simp only [parseConfiguration]
    generalize (if (root.lookupString "listen-address").isSome = true then none
      else root.lookupString "interface") = interface
    split
    · exact fun h => by cases h
    · split
      · exact fun h => by cases h
      · split
        · exact fun h => by cases h
        · rename_i hp
          exact fun _ => hp

/-- A configuration the daemon is built with defines only definable options. -/
theorem Served.onlyDefinable {host : ByteOrder} {cfg : SubnetConfiguration}
    (h : Served host cfg) : OnlyDefinable cfg.definedOptions := by
  rcases h with rfl | ⟨uninit, file, optval, hok, rfl⟩
  · exact fun tag ht => absurd ht Finmap.notMem_empty
  · obtain ⟨root, hroot⟩ := parseSubnet_of_ok hok
    exact parseSubnet_onlyDefinable hroot

lemma Served.messageType_notMem {host : ByteOrder} {cfg : SubnetConfiguration}
    (h : Served host cfg) : DHCP_MESSAGE_TYPE ∉ cfg.definedOptions :=
  fun hm => absurd (h.onlyDefinable _ hm) (by decide)

/-! ### What `parse_configuration` establishes -/

structure InNet (cfg : SubnetConfiguration) : Prop where
  rangeStart : cfg.rangeStart &&& cfg.netmask = cfg.subnetAddress &&& cfg.netmask
  rangeEnd : cfg.rangeEnd &&& cfg.netmask = cfg.subnetAddress &&& cfg.netmask
  fixedHosts : ∀ mac address, cfg.fixedHosts.lookup mac = some address →
    address &&& cfg.netmask = cfg.subnetAddress &&& cfg.netmask

/-- A configuration that has been checked: the addresses lie in the subnet, and the options
that every reply may need have the bytes of the fields they are about. -/
structure Validated (host : ByteOrder) (cfg : SubnetConfiguration) : Prop extends InNet cfg where
  subnetMask : cfg.definedOptions.lookup SUBNET_MASK =
    some (toByteArray (ntohl host cfg.netmask).toBitVec)
  leaseTime : cfg.definedOptions.lookup LEASE_TIME =
    some (toByteArray cfg.leaseTimeSeconds.toBitVec)

lemma checkNetRange_eq_ok {cfg : SubnetConfiguration} :
    checkNetRange cfg = .ok () ↔
      cfg.rangeStart &&& cfg.netmask = cfg.subnetAddress &&& cfg.netmask ∧
        cfg.rangeEnd &&& cfg.netmask = cfg.subnetAddress &&& cfg.netmask := by
  simp only [checkNetRange]
  split_ifs with h1 h2
  · exact iff_of_false (by simp) fun h => h1 h.1
  · exact iff_of_false (by simp) fun h => h2 h.2
  · exact iff_of_true rfl ⟨not_not.mp h1, not_not.mp h2⟩

lemma InNet.parseHost {cfg : SubnetConfiguration} (h : InNet cfg) (host : ByteOrder)
    (entry : Setting) : InNet (parseHost host cfg entry) := by
  unfold Config.parseHost
  split
  · split
    · split_ifs with hin
      · exact h
      · refine ⟨h.rangeStart, h.rangeEnd, fun mac address hl => ?_⟩
        rcases lookup_insert_cases hl with ⟨-, rfl⟩ | ⟨-, hl⟩
        · exact not_not.mp hin
        · exact h.fixedHosts mac address hl
    · exact h
  · exact h

lemma InNet.parseOption {host : ByteOrder} {cfg cfg' : SubnetConfiguration} (h : InNet cfg)
    {setting : String × Setting} (hp : parseOption host cfg setting = .ok cfg') : InNet cfg' := by
  unfold Config.parseOption at hp
  split at hp
  · exact Except.ok.inj hp ▸ h
  · obtain ⟨value, -, hv⟩ := bind_eq_ok.mp hp
    obtain rfl := Except.ok.inj hv
    exact ⟨h.rangeStart, h.rangeEnd, h.fixedHosts⟩

lemma InNet.readLeaseTime {cfg : SubnetConfiguration} (h : InNet cfg) (host : ByteOrder)
    (subnet : Setting) : Validated host (readLeaseTime host subnet cfg) where
  rangeStart := h.rangeStart
  rangeEnd := h.rangeEnd
  fixedHosts := h.fixedHosts
  subnetMask := by
    have hne : SUBNET_MASK ≠ LEASE_TIME := by decide
    rw [Config.readLeaseTime, Finmap.lookup_insert_of_ne _ hne, Finmap.lookup_insert]
  leaseTime := Finmap.lookup_insert _

/-- **A subnet that is parsed is checked.** -/
theorem validated_of_parseSubnet {host : ByteOrder} {uninit cfg : SubnetConfiguration}
    {root : Setting} (h : parseSubnet host uninit root = .ok cfg) : Validated host cfg := by
  unfold parseSubnet at h
  split at h
  · cases h
  · split at h
    · obtain ⟨_, hcheck, h⟩ := bind_eq_ok.mp h
      obtain ⟨mid, hmid, h⟩ := bind_eq_ok.mp h
      obtain rfl := Except.ok.inj h
      obtain ⟨hstart, hend⟩ := checkNetRange_eq_ok.mp hcheck
      have hnet : InNet mid := by
        refine readOptions_induction (fun _ _ _ hp h => h.parseOption hp) hmid
          (readHosts_induction (fun _ entry h => h.parseHost host entry) _ ⟨hstart, hend, ?_⟩)
        exact fun mac address hl => by simp at hl
      exact hnet.readLeaseTime host _
    · cases h

lemma validated_of_parse {host : ByteOrder} {uninit : SubnetConfiguration}
    {file : Except ConfigFault Setting} {optval : ProgramConfiguration}
    (h : (parseConfiguration host uninit file optval).1 = .ok ()) :
    Validated host (parseConfiguration host uninit file optval).2.subnetConfig := by
  obtain ⟨root, hroot⟩ := parseSubnet_of_ok h
  exact validated_of_parseSubnet hroot

lemma Accepted.validated {host : ByteOrder} {cfg : SubnetConfiguration} (h : Accepted host cfg) :
    Validated host cfg := by
  obtain ⟨uninit, file, optval, hok, rfl⟩ := h
  exact validated_of_parse hok

/-! ### The shipped example -/

/-- The settings of `examples/example.conf`. -/
def exampleConf : Setting := .group
  [("listen-address", .string "127.0.0.1".toList),
   ("interface", .string "lo".toList),
   ("subnet", .group
    [("net-address", .string "127.0.10.0".toList),
     ("netmask", .string "255.255.0.0".toList),
     ("range-start", .string "127.0.10.10".toList),
     ("range-end", .string "127.0.10.190".toList),
     ("options", .group
      [("routers", .string "127.0.10.5".toList),
       ("domain-name-servers", .array [.string "8.8.8.8".toList, .string "1.1.1.1".toList])]),
     ("hosts", .list
      [.group [("ether", .string "de:ad:c0:de:ca:fe".toList),
         ("fixed-address", .string "127.0.10.10".toList)],
       .group [("ether", .string "de:ad:c0:de:ca:ff".toList),
         ("fixed-address", .string "127.0.10.20".toList)]])])]

def exampleOwner : EtherAddr := ⟨[0xde, 0xad, 0xc0, 0xde, 0xca, 0xfe], rfl⟩
def exampleOwner' : EtherAddr := ⟨[0xde, 0xad, 0xc0, 0xde, 0xca, 0xff], rfl⟩

/-- What a little-endian host makes of it. -/
def exampleConfig : SubnetConfiguration where
  subnetAddress := 0x000a007f
  rangeStart := 0x0a0a007f
  rangeEnd := 0xbe0a007f
  netmask := 0x0000ffff
  leaseTimeSeconds := 3600
  fixedHosts := ((∅ : Finmap fun _ : EtherAddr => UInt32).insert exampleOwner 0x0a0a007f).insert
    exampleOwner' 0x140a007f
  definedOptions := ((((∅ : Options).insert ROUTERS [127, 0, 10, 5]).insert DNS_SERVER
    [8, 8, 8, 8, 1, 1, 1, 1]).insert SUBNET_MASK [255, 255, 0, 0]).insert LEASE_TIME
      [0, 0, 14, 16]

lemma accepted_exampleConfig : Accepted .little exampleConfig :=
  ⟨.zero, .ok exampleConf, ⟨0, [], [], .zero⟩, by decide +kernel, by decide +kernel⟩

end Config

end TinyDhcpd
