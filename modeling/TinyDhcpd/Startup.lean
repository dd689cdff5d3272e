import TinyDhcpd.Config

/-!
The way of `main` to the construction of the daemon.

`main` reads the configuration and then builds a `Daemon` from it. A file that cannot be read
or parsed makes it exit. The handler of `std::invalid_argument` only writes a message, so the
files that `parse_configuration` rejects itself lead to a daemon with the configuration that
`main` started with, which serves no address of any subnet.
-/

namespace TinyDhcpd.Startup

open Bytes Inet OptionTag Config

inductive Launch
  | exited
  | terminated
  | constructs (optval : ProgramConfiguration)

/-- The configuration `main` starts with, after the command line has been read. -/
def defaults (address : UInt32) (interface : List Char) : ProgramConfiguration where
  address := address
  interface := interface
  leaseFilePath := "/var/lib/tinydhcpd/leases".toList
  subnetConfig := .zero

/-- The `try` block around `parse_configuration` and its handlers. An exception without a
handler ends the program. -/
def startup (host : ByteOrder) (uninit : SubnetConfiguration) (file : Except ConfigFault Setting)
    (optval : ProgramConfiguration) : Launch :=
  match parseConfiguration host uninit file optval with
  | (.ok (), optval) => .constructs optval
  | (.error .parseException, _) => .exited
  | (.error .fileIOException, _) => .exited
  | (.error (.invalidArgument _), optval) => .constructs optval
  | (.error (.settingNotFound _), _) => .terminated
  | (.error .settingType, _) => .terminated
  | (.error .logicError, _) => .terminated

/-- What is served has been checked: a daemon is built only after `parse_configuration` has
returned, and with a validated configuration. -/
def ServesValidated (host : ByteOrder) (uninit : SubnetConfiguration)
    (file : Except ConfigFault Setting) (optval : ProgramConfiguration) : Prop :=
  ∀ served, startup host uninit file optval = .constructs served →
    (parseConfiguration host uninit file optval).1 = .ok () ∧ Validated host served.subnetConfig

/-- An address setting, or what the field held before. -/
def address (host : ByteOrder) (text : List Char) (old : UInt32) : UInt32 :=
  (inetAton host text).getD old

/-- The file has a subnet with its four addresses, and both ends of the range lie in it. -/
def SubnetFits (host : ByteOrder) (uninit : SubnetConfiguration) (root : Setting) : Prop :=
  ∃ subnet net mask first last, root.member "subnet" = some subnet ∧
    subnet.lookupString "net-address" = some net ∧ subnet.lookupString "netmask" = some mask ∧
    subnet.lookupString "range-start" = some first ∧
    subnet.lookupString "range-end" = some last ∧
    address host first uninit.rangeStart &&& address host mask uninit.netmask =
      address host net uninit.subnetAddress &&& address host mask uninit.netmask ∧
    address host last uninit.rangeEnd &&& address host mask uninit.netmask =
      address host net uninit.subnetAddress &&& address host mask uninit.netmask

/-- The condition on the file: it names an address or an interface to listen on, and its
subnet is complete and fits, unless no interface is known at all, which ends the program. -/
def Acceptable (host : ByteOrder) (uninit : SubnetConfiguration) (interface : List Char)
    (root : Setting) : Prop :=
  ((root.lookupString "listen-address").isSome ∨ (root.lookupString "interface").isSome) ∧
    (interface = [] ∧ root.lookupString "interface" = none ∨ SubnetFits host uninit root)

variable {host : ByteOrder} {uninit : SubnetConfiguration}

/-! ### The exceptions of the options -/

lemma asString_error {s : Setting} {e : ConfigFault} (h : s.asString = .error e) :
    e = .settingType := by
  unfold Setting.asString at h
  split at h
  · cases h
  · exact (Except.error.inj h).symm

lemma mapM_asString_error {es : List Setting} {e : ConfigFault}
    (h : es.mapM Setting.asString = .error e) : e = .settingType := by
  induction es with
  | nil => cases h
  | cons s es ih =>
    rw [List.mapM_cons, bind_eq_error] at h
    rcases h with h | ⟨v, -, h⟩
    · exact asString_error h
    · rcases bind_eq_error.mp h with h | ⟨vs, -, h⟩
      · exact ih h
      · cases h

lemma optionValue_error {s : Setting} {e : ConfigFault} (h : optionValue host s = .error e) :
    e = .settingType := by
  unfold optionValue at h
  split at h
  · cases h
  · rcases bind_eq_error.mp h with h | ⟨v, -, h⟩
    · exact mapM_asString_error h
    · cases h
  · rcases bind_eq_error.mp h with h | ⟨v, -, h⟩
    · exact asString_error h
    · cases h

lemma readOptions_error {subnet : Setting} {cfg : SubnetConfiguration} {e : ConfigFault}
    (h : readOptions host subnet cfg = .error e) : e = .settingType ∨ e = .logicError := by
  have hfold : ∀ (members : List (String × Setting)) (cfg : SubnetConfiguration),
      members.foldlM (parseOption host) cfg = .error e → e = .settingType := by
    intro members
    induction members with
    | nil => exact fun cfg h => by cases h
    | cons s ss ih =>
      intro cfg h
      rw [List.foldlM_cons] at h
      rcases bind_eq_error.mp h with h | ⟨mid, -, h⟩
      · unfold parseOption at h
        split at h
        · cases h
        · rcases bind_eq_error.mp h with h | ⟨v, -, h⟩
          · exact optionValue_error h
          · cases h
      · exact ih mid h
  unfold readOptions parseOptions at h
  split at h
  · split at h
    · exact Or.inl (hfold _ cfg h)
    · split_ifs at h
      exact Or.inr (Except.error.inj h).symm
  · cases h

/-! ### What is rejected -/

lemma checkNetRange_error {cfg : SubnetConfiguration} {e : ConfigFault}
    (h : checkNetRange cfg = .error e) : ∃ what, e = .invalidArgument what := by
  simp only [checkNetRange] at h
  split_ifs at h
  · exact ⟨_, (Except.error.inj h).symm⟩
  · exact ⟨_, (Except.error.inj h).symm⟩

lemma subnetFits_iff {root subnet : Setting} {net mask first last : List Char}
    (hs : root.member "subnet" = some subnet) (h1 : subnet.lookupString "net-address" = some net)
    (h2 : subnet.lookupString "netmask" = some mask)
    (h3 : subnet.lookupString "range-start" = some first)
    (h4 : subnet.lookupString "range-end" = some last) :
    SubnetFits host uninit root ↔
      address host first uninit.rangeStart &&& address host mask uninit.netmask =
          address host net uninit.subnetAddress &&& address host mask uninit.netmask ∧
        address host last uninit.rangeEnd &&& address host mask uninit.netmask =
          address host net uninit.subnetAddress &&& address host mask uninit.netmask := by
  simp [SubnetFits, hs, h1, h2, h3, h4]

/-- A subnet is rejected by a `std::invalid_argument` exactly if it is incomplete or does not
fit; the exceptions of its options are of other types. -/
lemma parseSubnet_rejected_iff (root : Setting) :
    (∃ what, parseSubnet host uninit root = .error (.invalidArgument what)) ↔
      ¬ SubnetFits host uninit root := by
  unfold parseSubnet
  split
  · rename_i hs
    refine iff_of_true ⟨_, rfl⟩ ?_
    rintro ⟨subnet, net, mask, first, last, hs', -⟩
    rw [hs] at hs'
    cases hs'
  · rename_i subnet hs
    split
    · rename_i net mask first last h1 h2 h3 h4
      rw [subnetFits_iff hs h1 h2 h3 h4]
      constructor
      · rintro ⟨what, hw⟩ hfit
        rcases bind_eq_error.mp hw with hc | ⟨_, -, hw⟩
        · rw [checkNetRange_eq_ok.mpr hfit] at hc
          cases hc
        · rcases bind_eq_error.mp hw with ho | ⟨_, -, hw⟩
          · rcases readOptions_error ho with he | he <;> cases he
          · cases hw
      · intro hfit
        cases hc : checkNetRange ⟨address host net uninit.subnetAddress,
            address host first uninit.rangeStart, address host last uninit.rangeEnd,
            address host mask uninit.netmask, uninit.leaseTimeSeconds, ∅, ∅⟩ with
        | ok _ => exact absurd (checkNetRange_eq_ok.mp hc) hfit
        | error e =>
          obtain ⟨what, rfl⟩ := checkNetRange_error hc
          exact ⟨what, bind_eq_error.mpr (Or.inl hc)⟩
    · -- one of the four addresses is missing
      rename_i hn
      refine iff_of_true ⟨_, rfl⟩ ?_
      rintro ⟨subnet', net, mask, first, last, hs', h1, h2, h3, h4, -⟩
      rw [hs] at hs'
      cases hs'
      exact hn net mask first last h1 h2 h3 h4

/-- The name of the interface: the one that is known, else that of the file. -/
def knownInterface (interface : List Char) (root : Setting) : Except ConfigFault (List Char) :=
  if interface ≠ [] then .ok interface
  else match root.member "interface" with
    | none => .error (.settingNotFound "interface")
    | some s => s.asString

lemma knownInterface_cases (interface : List Char) (root : Setting) :
    (∃ name, knownInterface interface root = .ok name) ∧
        (interface ≠ [] ∨ (root.lookupString "interface").isSome) ∨
      (∃ e, knownInterface interface root = .error e ∧ ∀ what, e ≠ .invalidArgument what) ∧
        interface = [] ∧ root.lookupString "interface" = none := by
  unfold knownInterface Setting.lookupString
  by_cases hi : interface = []
  · rw [if_neg (not_not.mpr hi)]
    cases root.member "interface" with
    | none => exact Or.inr ⟨⟨_, rfl, by simp⟩, hi, rfl⟩
    | some s => cases s <;> simp [Setting.asString, hi]
  · rw [if_pos hi]
    exact Or.inl ⟨⟨_, rfl⟩, Or.inl hi⟩

/-- What is known of the interface when it is looked up: the file is asked for it first only
if there is no listen address. -/
def namedInterface (interface : List Char) (root : Setting) : List Char :=
  (if (root.lookupString "listen-address").isSome then none
    else root.lookupString "interface").getD interface

lemma parseConfiguration_fst (root : Setting) (optval : ProgramConfiguration) :
    (parseConfiguration host uninit (.ok root) optval).1 =
      if (root.lookupString "listen-address").isNone ∧ (root.lookupString "interface").isNone then
        .error (.invalidArgument "One of (listen-address|interface) must be given!")
      else do
        let _ ← knownInterface (namedInterface optval.interface root) root
        let _ ← parseSubnet host uninit root
        return () := by
  by_cases hnone : (root.lookupString "listen-address").isNone ∧
      (root.lookupString "interface").isNone
  · rw [if_pos hnone]
    have hl := Option.isNone_iff_eq_none.mp hnone.1
    have hi := Option.isNone_iff_eq_none.mp hnone.2
    simp [parseConfiguration, hl, hi]
  · rw [if_neg hnone]
    have hbound : ¬ ((root.lookupString "listen-address").isNone = true ∧
        (if (root.lookupString "listen-address").isSome = true then none
          else root.lookupString "interface").isNone = true) := by
      rintro ⟨hl, hi⟩
      rw [Option.isNone_iff_eq_none.mp hl] at hi
      exact hnone ⟨hl, hi⟩
    simp only [parseConfiguration, if_neg hbound]
    split <;> rename_i hn
    · have hk : knownInterface (namedInterface optval.interface root) root = .error _ := hn
      rw [hk]
      rfl
    · have hk : knownInterface (namedInterface optval.interface root) root = .ok _ := hn
      rw [hk]
      cases parseSubnet host uninit root <;> rfl

lemma namedInterface_of_none (interface : List Char) {root : Setting}
    (h : root.lookupString "interface" = none) : namedInterface interface root = interface := by
  simp [namedInterface, h]

lemma parseConfiguration_rejected_iff (host : ByteOrder) (uninit : SubnetConfiguration)
    (root : Setting) (optval : ProgramConfiguration) :
    (∃ what, (parseConfiguration host uninit (.ok root) optval).1 =
        .error (.invalidArgument what)) ↔
      ¬ Acceptable host uninit optval.interface root := by
  rw [parseConfiguration_fst]
  -- neither an address nor an interface to listen on
  by_cases hnone : (root.lookupString "listen-address").isNone ∧
      (root.lookupString "interface").isNone
  · rw [if_pos hnone]
    refine iff_of_true ⟨_, rfl⟩ fun h => ?_
    rcases h.1 with hc | hc
    · rw [Option.isNone_iff_eq_none.mp hnone.1] at hc
      cases hc
    · rw [Option.isNone_iff_eq_none.mp hnone.2] at hc
      cases hc
  rw [if_neg hnone]
  have hbound : (root.lookupString "listen-address").isSome ∨
      (root.lookupString "interface").isSome := by
    by_contra hc
    exact hnone (by simpa using hc)
  rcases knownInterface_cases (namedInterface optval.interface root) root with
    ⟨⟨name, hk⟩, hn⟩ | ⟨⟨e, hk, he⟩, hn, hi⟩
  · have hname : ¬ (optval.interface = [] ∧ root.lookupString "interface" = none) := by
      rintro ⟨h1, h2⟩
      rw [namedInterface_of_none _ h2] at hn
      rcases hn with hn | hn
      · exact hn h1
      · rw [h2] at hn
        cases hn
    have hacc : Acceptable host uninit optval.interface root ↔ SubnetFits host uninit root := by
      simp only [Acceptable, hbound, hname, true_and, false_or]
    rw [hacc, ← parseSubnet_rejected_iff, hk]
    cases parseSubnet host uninit root with
    | error e => simp [bind, Except.bind]
    | ok cfg => exact iff_of_false (fun ⟨_, h⟩ => by cases h) fun ⟨_, h⟩ => by cases h
  · rw [namedInterface_of_none _ hi] at hn
    rw [hk]
    refine iff_of_false ?_ (not_not.mpr ⟨hbound, Or.inl ⟨hn, hi⟩⟩)
    rintro ⟨what, hw⟩
    exact he what (Except.error.inj hw)

/-- **The daemon serves a validated configuration** exactly if the file, when it can be read
and parsed, is acceptable. -/
theorem servesValidated_iff (host : ByteOrder) (uninit : SubnetConfiguration)
    (file : Except ConfigFault Setting)
    (hfile : ∀ e, file = .error e → e = .parseException ∨ e = .fileIOException)
    (address : UInt32) (interface : List Char) :
    ServesValidated host uninit file (defaults address interface) ↔
      ∀ root, file = .ok root → Acceptable host uninit interface root := by
  cases file with
  | error e =>
    refine iff_of_true (fun served hs => ?_) fun root hr => by cases hr
    rcases hfile e rfl with rfl | rfl <;> cases hs
  | ok root =>
    have hrej := parseConfiguration_rejected_iff host uninit root (defaults address interface)
    have hvalid :
        (parseConfiguration host uninit (.ok root) (defaults address interface)).1 = .ok () →
          Validated host (parseConfiguration host uninit (.ok root)
            (defaults address interface)).2.subnetConfig := validated_of_parse
    simp only [Except.ok.injEq, forall_eq']
    unfold ServesValidated startup
    rcases hp : parseConfiguration host uninit (.ok root) (defaults address interface) with
      ⟨result, optval⟩
    rw [hp] at hrej hvalid
    have accepted (h : ∀ what, result ≠ .error (.invalidArgument what)) :
        Acceptable host uninit interface root :=
      not_not.mp fun hc => by
        obtain ⟨what, hw⟩ := hrej.mpr hc
        exact h what hw
    cases result with
    | ok u =>
      refine iff_of_true (fun served hs => ⟨rfl, ?_⟩) (accepted (by simp))
      cases hs
      exact hvalid rfl
    | error e =>
      cases e with
      | invalidArgument what =>
        -- it is reported, and the program goes on with what there is
        refine iff_of_false (fun h => ?_) (hrej.mp ⟨what, rfl⟩)
        obtain ⟨hok, -⟩ := h optval rfl
        cases hok
      | _ => exact iff_of_true (fun served hs => by cases hs) (accepted (by simp))

def emptyFile : Setting := .group []

theorem servesValidated_iff_exampleConf :
    ServesValidated .little .zero (.ok exampleConf) (defaults 0 []) ↔
      ∀ root, (.ok exampleConf : Except ConfigFault Setting) = .ok root →
        Acceptable .little .zero [] root :=
  servesValidated_iff .little .zero (.ok exampleConf) (by simp) 0 []

/-- An empty file is rejected, and a daemon is built all the same, with a configuration that
is not validated. -/
theorem emptyFile_is_served :
    (parseConfiguration .little .zero (.ok emptyFile) (defaults 0 [])).1 =
        .error (.invalidArgument "One of (listen-address|interface) must be given!") ∧
      startup .little .zero (.ok emptyFile) (defaults 0 []) = .constructs (defaults 0 []) ∧
      ¬ Validated .little (defaults 0 []).subnetConfig := by
  refine ⟨rfl, rfl, fun h => ?_⟩
  have hm := h.subnetMask
  simp [defaults, SubnetConfiguration.zero] at hm

end TinyDhcpd.Startup
