import TinyDhcpd.Daemon
import TinyDhcpd.Log
import TinyDhcpd.Startup

/-!
Where the daemon listens: the command line, the configuration file and the socket.

The address and the interface can be given on the command line and in the file. `main` reads the
command line first and `parse_configuration` goes over what it has found there. The constructor
of the socket binds to the two, and finds out the address of the server if none was given.
-/

namespace TinyDhcpd.Listening

open Bytes Inet Config Startup Daemon Run

/-! ### The command line -/

structure Build where
  haveSystemd : Bool
  enableTrace : Bool

/-- An option and its argument, as `getopt_long` finds them. -/
inductive Opt
  | address (optarg : List Char)
  | interface (optarg : List Char)
  | configfile (optarg : List Char)
  | foreground
  | trace
  | debug
  | sysv
  | systemd
  | unknown

inductive DaemonType
  | SYSTEMD
  | SYSV
  deriving DecidableEq

structure CommandLine where
  address : UInt32
  interface : List Char
  confpath : List Char
  foreground : Bool
  daemonType : DaemonType
  level : Log.Level

/-- What `main` starts with. -/
def initial (build : Build) : CommandLine where
  address := INADDR_ANY
  interface := []
  confpath := "/etc/tinydhcpd/tinydhcpd.conf".toList
  foreground := false
  daemonType := if build.haveSystemd then .SYSTEMD else .SYSV
  level := .INFO

/-- The body of the loop over the options. `inet_aton` leaves the address alone if it cannot read
its argument. -/
def applyOption (host : ByteOrder) (build : Build) (c : CommandLine) : Opt → CommandLine
  | .address optarg => { c with address := (inetAton host optarg).getD c.address }
  | .interface optarg => { c with interface := optarg }
  | .configfile optarg => { c with confpath := optarg }
  | .foreground => { c with foreground := true }
  | .trace => if build.enableTrace then { c with level := .TRACE } else c
  | .debug => { c with level := .DEBUG }
  | .sysv => { c with daemonType := .SYSV }
  | .systemd => if build.haveSystemd then { c with daemonType := .SYSTEMD } else c
  | .unknown => c

def commandLine (host : ByteOrder) (build : Build) (opts : List Opt) : CommandLine :=
  run (applyOption host build) (initial build) opts

def Opt.addressArg (host : ByteOrder) : Opt → Option UInt32
  | .address optarg => inetAton host optarg
  | _ => none

def Opt.interfaceArg : Opt → Option (List Char)
  | .interface optarg => some optarg
  | _ => none

def Opt.configfileArg : Opt → Option (List Char)
  | .configfile optarg => some optarg
  | _ => none

lemma commandLine_last (host : ByteOrder) (build : Build) (opts : List Opt) :
    (commandLine host build opts).address =
        (opts.filterMap (Opt.addressArg host)).getLast?.getD INADDR_ANY ∧
      (commandLine host build opts).interface =
        (opts.filterMap Opt.interfaceArg).getLast?.getD [] ∧
      (commandLine host build opts).confpath = (opts.filterMap Opt.configfileArg).getLast?.getD
        "/etc/tinydhcpd/tinydhcpd.conf".toList := by
  refine ⟨run_last CommandLine.address _ (fun c opt => ?_) _ _,
    run_last CommandLine.interface _ (fun c opt => ?_) _ _,
    run_last CommandLine.confpath _ (fun c opt => ?_) _ _⟩ <;>
  · cases opt with
    | trace | systemd =>
      simp only [applyOption]
      split_ifs <;> rfl
    | _ => rfl

/-! ### The configuration file -/

/-- The way of `main` from the command line to the construction of the daemon, with the files that
can be read. -/
def launch (host : ByteOrder) (build : Build) (uninit : SubnetConfiguration)
    (files : List Char → Except ConfigFault Setting) (opts : List Opt) : Launch :=
  let c := commandLine host build opts
  startup host uninit (files c.confpath) (defaults c.address c.interface)

/-- The file says nothing about where to listen. -/
def Silent (root : Setting) : Prop :=
  root.lookupString "listen-address" = none ∧ root.lookupString "interface" = none

instance (root : Setting) : Decidable (Silent root) :=
  inferInstanceAs (Decidable (_ ∧ _))

/-- The interface that is used is the one that was given if there is a listen address in the file,
or nothing at all. Else it is that of the file. -/
def Uses (root : Setting) (given used : List Char) : Prop :=
  if (root.lookupString "listen-address").isSome ∧ given ≠ [] ∨ Silent root then used = given
  else root.lookupString "interface" = some used

lemma lookupString_of_asString {root s : Setting} {name : String} {v : List Char}
    (hm : root.member name = some s) (hs : s.asString = .ok v) :
    root.lookupString name = some v := by
  rw [Setting.lookupString, hm]
  cases s <;> simp_all [Setting.asString]

lemma lookupString_of_known {root : Setting} {used : List Char}
    (h : knownInterface [] root = .ok used) : root.lookupString "interface" = some used := by
  rw [knownInterface, if_neg (not_not.mpr rfl)] at h
  cases hm : root.member "interface" with
  | none => simp [hm] at h
  | some s =>
    simp only [hm] at h
    exact lookupString_of_asString hm h

lemma uses_of_known {root : Setting} {given used : List Char} (hs : ¬ Silent root)
    (h : knownInterface (namedInterface given root) root = .ok used) : Uses root given used := by
  unfold Uses
  cases hl : root.lookupString "listen-address" with
  | some listen =>
    simp only [namedInterface, hl, Option.isSome_some, if_true, Option.getD_none] at h
    by_cases hg : given = []
    · rw [if_neg (by simp [hg, hs])]
      exact lookupString_of_known (hg ▸ h)
    · rw [knownInterface, if_pos hg] at h
      rw [if_pos (Or.inl ⟨rfl, hg⟩)]
      exact (Except.ok.inj h).symm
  | none =>
    cases hi : root.lookupString "interface" with
    | none => exact absurd ⟨hl, hi⟩ hs
    | some name =>
      simp only [namedInterface, hl, hi, Option.isSome_none, Bool.false_eq_true, if_false,
        Option.getD_some] at h
      rw [if_neg (by simp [hs])]
      by_cases hn : name = []
      · exact hi ▸ lookupString_of_known (hn ▸ h)
      · rw [knownInterface, if_pos hn] at h
        rw [Except.ok.inj h]

lemma not_bound_of_not_silent {root : Setting} (hs : ¬ Silent root) :
    ¬ ((root.lookupString "listen-address").isNone ∧
      (if (root.lookupString "listen-address").isSome then none
        else root.lookupString "interface").isNone) := by
  rintro ⟨hl, hi⟩
  rw [Option.isNone_iff_eq_none] at hl
  rw [hl] at hi
  exact hs ⟨hl, Option.isNone_iff_eq_none.mp hi⟩

lemma parseConfiguration_known {host : ByteOrder} {uninit : SubnetConfiguration} {root : Setting}
    {optval : ProgramConfiguration} (hs : ¬ Silent root) {used : List Char}
    (hk : knownInterface (namedInterface optval.interface root) root = .ok used) :
    (parseConfiguration host uninit (.ok root) optval).2.interface = used ∧
      (parseConfiguration host uninit (.ok root) optval).2.address =
        ((root.lookupString "listen-address").bind (inetAton host)).getD optval.address := by
  simp only [parseConfiguration, if_neg (not_bound_of_not_silent hs)]
  split <;> rename_i hn
  · have hk' : knownInterface (namedInterface optval.interface root) root = .error _ := hn
    rw [hk] at hk'
    cases hk'
  · have hk' : knownInterface (namedInterface optval.interface root) root = .ok _ := hn
    rw [hk] at hk'
    cases hk'
    cases parseSubnet host uninit root <;> exact ⟨rfl, rfl⟩

lemma parseConfiguration_silent {host : ByteOrder} {uninit : SubnetConfiguration} {root : Setting}
    {optval : ProgramConfiguration} (hs : Silent root) :
    (parseConfiguration host uninit (.ok root) optval).2 = optval := by
  simp [parseConfiguration, hs.1, hs.2]

lemma startup_of_ok {host : ByteOrder} {uninit : SubnetConfiguration}
    {file : Except ConfigFault Setting} {optval : ProgramConfiguration}
    (h : (parseConfiguration host uninit file optval).1 = .ok ()) :
    startup host uninit file optval =
      .constructs (parseConfiguration host uninit file optval).2 := by
  unfold startup
  split <;> rename_i hp <;> rw [hp] at h <;> cases h
  rw [hp]

lemma constructs_cases {host : ByteOrder} {uninit : SubnetConfiguration}
    {file : Except ConfigFault Setting} {optval served : ProgramConfiguration}
    (h : startup host uninit file optval = .constructs served) :
    served = (parseConfiguration host uninit file optval).2 ∧
      ∀ e, (parseConfiguration host uninit file optval).1 = .error e →
        ∃ what, e = .invalidArgument what := by
  unfold startup at h
  split at h <;> rename_i hp <;> cases h <;> rw [hp]
  · exact ⟨rfl, fun e he => by cases he⟩
  · exact ⟨rfl, fun e he => ⟨_, (Except.error.inj he).symm⟩⟩

lemma of_startup {host : ByteOrder} {uninit : SubnetConfiguration}
    {file : Except ConfigFault Setting} {optval served : ProgramConfiguration}
    (hfile : ∀ e, file = .error e → e = .parseException ∨ e = .fileIOException)
    (h : startup host uninit file optval = .constructs served) :
    ∃ root, file = .ok root ∧ Uses root optval.interface served.interface ∧
      served.address = ((root.lookupString "listen-address").bind (inetAton host)).getD
        optval.address := by
  cases file with
  | error e => rcases hfile e rfl with rfl | rfl <;> cases h
  | ok root =>
    obtain ⟨rfl, hrejects⟩ := constructs_cases h
    refine ⟨root, rfl, ?_⟩
    by_cases hs : Silent root
    · rw [parseConfiguration_silent hs, Uses, if_pos (Or.inr hs), hs.1]
      exact ⟨rfl, rfl⟩
    rcases knownInterface_cases (namedInterface optval.interface root) root with
      ⟨⟨used, hk⟩, -⟩ | ⟨⟨e, hk, he⟩, -⟩
    · obtain ⟨hi, ha⟩ := @parseConfiguration_known host uninit root optval hs used hk
      exact ⟨hi ▸ uses_of_known hs hk, ha⟩
    · -- the program ends when no interface is known
      have hfst : (parseConfiguration host uninit (.ok root) optval).1 = _ :=
        parseConfiguration_fst root optval
      rw [if_neg (by simpa [Silent] using hs), hk] at hfst
      obtain ⟨what, hw⟩ := hrejects e hfst
      exact absurd hw (he what)

/-! ### The socket -/

def IFNAMSIZ : ℕ := 16

/-- What the calls of the constructor answer. -/
structure Calls where
  socket : Bool
  pktinfo : Bool
  broadcast : Bool
  bindToDevice : Bool
  ifaddr : Option UInt32
  bind : Bool

structure Bound where
  address : UInt32
  device : List Char
  serverIp : UInt32
  deriving DecidableEq

/-- The block of the constructor that is for a named interface: the name is copied into the 16
bytes of `ifr_name`, whatever its length. It gives `_server_ip`. -/
def bindInterface (address : UInt32) (ifaceName : List Char) (calls : Calls) :
    Except Fault UInt32 :=
  if ifaceName = [] then .ok address
  else if IFNAMSIZ < ifaceName.length then .error (.outOfBounds IFNAMSIZ)
  else if ¬ calls.bindToDevice then .error (.runtimeError "")
  else if address = INADDR_ANY then
    match calls.ifaddr with
    | none => .error (.runtimeError "")
    | some ifaddr => .ok ifaddr
  else .ok address

/-- The constructor of `Socket`. -/
def construct (address : UInt32) (ifaceName : List Char) (calls : Calls) : Except Fault Bound :=
  if ¬ calls.socket then .error (.runtimeError "")
  else if ¬ calls.pktinfo then .error (.runtimeError "")
  else if ¬ calls.broadcast then .error (.runtimeError "")
  else match bindInterface address ifaceName calls with
    | .error fault => .error fault
    | .ok serverIp =>
      if ¬ calls.bind then .error (.runtimeError "") else .ok ⟨address, ifaceName, serverIp⟩

/-- The address of the server: the one that is listened on, or that of the interface. -/
def Serves (bound : Bound) (calls : Calls) : Prop :=
  if bound.address = INADDR_ANY ∧ bound.device ≠ [] then calls.ifaddr = some bound.serverIp
  else bound.serverIp = bound.address

lemma of_bindInterface {address serverIp : UInt32} {ifaceName : List Char} {calls : Calls}
    (h : bindInterface address ifaceName calls = .ok serverIp) :
    ifaceName.length ≤ IFNAMSIZ ∧ Serves ⟨address, ifaceName, serverIp⟩ calls := by
  unfold bindInterface at h
  unfold Serves
  split_ifs at h with hn hlen hb ha
  · cases h
    rw [if_neg fun hc => hc.2 hn, hn]
    exact ⟨Nat.zero_le _, rfl⟩
  · split at h
    · cases h
    · rename_i ifaddr hi
      cases h
      rw [if_pos ⟨ha, hn⟩]
      exact ⟨not_lt.mp hlen, hi⟩
  · cases h
    rw [if_neg fun hc => ha hc.1]
    exact ⟨not_lt.mp hlen, rfl⟩

lemma of_construct {address : UInt32} {ifaceName : List Char} {calls : Calls} {bound : Bound}
    (h : construct address ifaceName calls = .ok bound) :
    bound.address = address ∧ bound.device = ifaceName ∧ ifaceName.length ≤ IFNAMSIZ ∧
      Serves bound calls := by
  unfold construct at h
  cases hi : bindInterface address ifaceName calls with
  | error fault =>
    rw [hi] at h
    split_ifs at h
  | ok serverIp =>
    rw [hi] at h
    split_ifs at h
    cases h
    exact ⟨rfl, rfl, of_bindInterface hi⟩

/-! ### From the command line to the socket -/

/-- **Where the daemon listens.** The last file that was named is read. The address is that of the
file if it can be read, else the last one of the command line that can be read, else any. The
interface of the command line counts only if the file has a listen address or says nothing. -/
theorem listens_on (host : ByteOrder) (build : Build) (uninit : SubnetConfiguration)
    (files : List Char → Except ConfigFault Setting)
    (hfiles : ∀ path e, files path = .error e → e = .parseException ∨ e = .fileIOException)
    (opts : List Opt) (served : ProgramConfiguration)
    (hlaunch : launch host build uninit files opts = .constructs served) (calls : Calls)
    (bound : Bound) (hbound : construct served.address served.interface calls = .ok bound) :
    ∃ root, files ((opts.filterMap Opt.configfileArg).getLast?.getD
          "/etc/tinydhcpd/tinydhcpd.conf".toList) = .ok root ∧
      bound.address = ((root.lookupString "listen-address").bind (inetAton host)).getD
        ((opts.filterMap (Opt.addressArg host)).getLast?.getD INADDR_ANY) ∧
      Uses root ((opts.filterMap Opt.interfaceArg).getLast?.getD []) bound.device ∧
      bound.device.length ≤ IFNAMSIZ ∧ Serves bound calls := by
  obtain ⟨haddress, hinterface, hconfpath⟩ := commandLine_last host build opts
  obtain ⟨root, hroot, huses, hserved⟩ := of_startup (hfiles _) hlaunch
  obtain ⟨ha, hd, hlen, hserves⟩ := of_construct hbound
  simp only [defaults] at huses hserved
  rw [haddress] at hserved
  rw [hinterface] at huses
  rw [hconfpath] at hroot
  exact ⟨root, hroot, ha.trans hserved, hd ▸ huses, hd ▸ hlen, hserves⟩

def onlyFile (root : Setting) (path : List Char) : Except ConfigFault Setting :=
  if path = "/etc/tinydhcpd/tinydhcpd.conf".toList then .ok root else .error .fileIOException

def working (ifaddr : UInt32) : Calls where
  socket := true
  pktinfo := true
  broadcast := true
  bindToDevice := true
  ifaddr := some ifaddr
  bind := true

def exampleOpts : List Opt :=
  [.interface "eth1".toList, .address "10.0.0.1".toList, .interface "eth0".toList]

theorem listens_on_exampleConf :
    ∃ served bound,
      launch .little ⟨true, true⟩ .zero (onlyFile exampleConf) exampleOpts = .constructs served ∧
      construct served.address served.interface (working 7) = .ok bound ∧
      ∃ root, onlyFile exampleConf ((exampleOpts.filterMap Opt.configfileArg).getLast?.getD
            "/etc/tinydhcpd/tinydhcpd.conf".toList) = .ok root ∧
        bound.address = ((root.lookupString "listen-address").bind (inetAton .little)).getD
          ((exampleOpts.filterMap (Opt.addressArg .little)).getLast?.getD INADDR_ANY) ∧
        Uses root ((exampleOpts.filterMap Opt.interfaceArg).getLast?.getD []) bound.device ∧
        bound.device.length ≤ IFNAMSIZ ∧ Serves bound (working 7) := by
  have ha : (commandLine .little ⟨true, true⟩ exampleOpts).address = 0x0100000a := by
    decide +kernel
  have hi : (commandLine .little ⟨true, true⟩ exampleOpts).interface = "eth0".toList := by
    decide +kernel
  have hf : onlyFile exampleConf (commandLine .little ⟨true, true⟩ exampleOpts).confpath =
      .ok exampleConf := if_pos (by decide +kernel)
  have hp : (parseConfiguration .little .zero (.ok exampleConf)
      (defaults 0x0100000a "eth0".toList)).1 = .ok () := by decide +kernel
  have hsa : (parseConfiguration .little .zero (.ok exampleConf)
      (defaults 0x0100000a "eth0".toList)).2.address = 0x0100007f := by decide +kernel
  have hsi : (parseConfiguration .little .zero (.ok exampleConf)
      (defaults 0x0100000a "eth0".toList)).2.interface = "eth0".toList := by decide +kernel
  have hl : launch .little ⟨true, true⟩ .zero (onlyFile exampleConf) exampleOpts =
      .constructs (parseConfiguration .little .zero (.ok exampleConf)
        (defaults 0x0100000a "eth0".toList)).2 := by
    simp only [launch, ha, hi, hf]
    exact startup_of_ok hp
  generalize (parseConfiguration .little .zero (.ok exampleConf)
    (defaults 0x0100000a "eth0".toList)).2 = served at hl hsa hsi
  have hc : construct served.address served.interface (working 7) =
      .ok ⟨0x0100007f, "eth0".toList, 0x0100007f⟩ := by
    rw [hsa, hsi]
    decide +kernel
  refine ⟨served, _, hl, hc, ?_⟩
  refine listens_on .little ⟨true, true⟩ .zero (onlyFile exampleConf) ?_ exampleOpts served hl
    (working 7) _ hc
  intro path e he
  unfold onlyFile at he
  split_ifs at he
  exact Or.inr (Except.error.inj he).symm

end TinyDhcpd.Listening
