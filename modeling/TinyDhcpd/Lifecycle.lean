import TinyDhcpd.Restart

/-!
`main`: the phases of a process, and the signals that arrive in them.

The handlers of `SIGINT` and `SIGHUP` are installed when the program starts, that of `SIGTERM`
before it enters the loop. `daemonize` gives every signal its default action for a SysV daemon. A
signal that is neither handled nor ignored ends the process where it is: before the leases have
been written, or in the middle of it.
-/

namespace TinyDhcpd.Lifecycle

open Bytes Receive Epoll Socket LeaseFile Refinement Run

inductive Mode
  | foreground
  | systemd
  | sysv
  deriving DecidableEq

/-- What `main` does next. In `write`, what follows has not been written yet. -/
inductive Phase
  | signalInt
  | signalHup
  | construct
  | daemonize
  | signalTerm
  | mainLoop
  | openFile
  | write (rest : List Char)
  | exited (success : Bool)
  | killed

/-- The process, which signals it handles and which it ignores, and the contents of the lease file.
The last signal is part of the state of the loop. -/
structure State where
  phase : Phase
  handlers : List Signal
  ignored : List Signal
  loop : Epoll.State (SocketState LeaseTable)
  file : List Char

/-- What the calls of the next step answer: whether they succeed, the time, the indeterminate
contents in `load_leases`, what the loop sees, and how much of the file gets written at once. -/
structure Answers where
  ok : Bool
  time : UInt64
  uninit : ℕ → HwAddr
  loop : Answer Arrival Output
  written : ℕ

/-- `signal` is the delivery of `SIGINT`, `SIGHUP` or `SIGTERM`; `kill` that of any other signal
that ends the process, such as `SIGKILL`. -/
inductive Event
  | signal (signum : Signal)
  | kill
  | proceed (x : Answers)

/-- A process inherits which signals are ignored. -/
def boot (ignored : List Signal) (file : List Char) : State :=
  ⟨.signalInt, [], ignored, start none ⟨[], .empty⟩, file⟩

variable (host : ByteOrder) (cfg : SubnetConfiguration) (serverIp : UInt32) (mode : Mode)

/-- The next step of `main`. An exception out of the construction of the daemon, `daemonize` or
the loop ends the program; errors of the stream in `write_leases` are not looked at. -/
def proceed (s : State) (x : Answers) : State :=
  match s.phase with
  | .signalInt => { s with phase := .signalHup, handlers := .SIGINT :: s.handlers }
  | .signalHup => { s with phase := .construct, handlers := .SIGHUP :: s.handlers }
  | .construct =>
    if x.ok then
      match loadLeases host x.uninit x.time s.file .empty with
      | .ok leases => { s with phase := .daemonize, loop := start s.loop.lastSignal ⟨[], leases⟩ }
      | .error _ => { s with phase := .exited false }
    else { s with phase := .exited false }
  | .daemonize =>
    if mode = .sysv then
      if x.ok then { s with phase := .signalTerm, handlers := [], ignored := [] }
      else { s with phase := .exited false }
    else { s with phase := .signalTerm }
  | .signalTerm => { s with phase := .mainLoop, handlers := .SIGTERM :: s.handlers }
  | .mainLoop =>
    match s.loop.pc with
    | .returned => { s with phase := .openFile }
    | .threw _ => { s with phase := .exited false }
    | _ => { s with loop := Epoll.proceed (socket host (daemon host cfg serverIp)) s.loop x.loop }
  | .openFile =>
    if x.ok then
      { s with phase := .write (writeLeases host x.time s.loop.subject.observer), file := [] }
    else { s with phase := .exited true }
  | .write rest =>
    if x.ok then
      { s with
        phase := if rest.length ≤ x.written then .exited true else .write (rest.drop x.written)
        file := s.file ++ rest.take x.written }
    else { s with phase := .exited true }
  | .exited _ => s
  | .killed => s

def Phase.ended : Phase → Bool
  | .exited _ => true
  | .killed => true
  | _ => false

/-- The delivery of a signal. The default action of all three ends the process. -/
def signal (s : State) (signum : Signal) : State :=
  if s.phase.ended then s
  else if signum ∈ s.handlers then { s with loop := sighandler s.loop signum }
  else if signum ∈ s.ignored then s
  else { s with phase := .killed }

def kill (s : State) : State := if s.phase.ended then s else { s with phase := .killed }

def step (s : State) : Event → State
  | .signal signum => signal s signum
  | .kill => kill s
  | .proceed x => proceed host cfg serverIp mode s x

/-- The packets a step hands to `handle_recv`. -/
def handled (s : State) : Event → List Daemon.Event
  | .signal _ => []
  | .kill => []
  | .proceed x =>
    match s.phase with
    | .mainLoop => packets host serverIp s.loop (.proceed x.loop)
    | _ => []

/-! ### What a step can do -/

inductive Moves (s : State) : Event → State → Prop
  | installInt {x : Answers} (hp : s.phase = .signalInt) :
    Moves s (.proceed x) { s with phase := .signalHup, handlers := .SIGINT :: s.handlers }
  | installHup {x : Answers} (hp : s.phase = .signalHup) :
    Moves s (.proceed x) { s with phase := .construct, handlers := .SIGHUP :: s.handlers }
  | loads {x : Answers} (hp : s.phase = .construct) {leases : LeaseTable}
    (hl : loadLeases host x.uninit x.time s.file .empty = .ok leases) :
    Moves s (.proceed x)
      { s with phase := .daemonize, loop := start s.loop.lastSignal ⟨[], leases⟩ }
  | fails {x : Answers} (hp : s.phase = .construct ∨ s.phase = .daemonize) :
    Moves s (.proceed x) { s with phase := .exited false }
  | detaches {x : Answers} (hp : s.phase = .daemonize) (hm : mode = .sysv) :
    Moves s (.proceed x) { s with phase := .signalTerm, handlers := [], ignored := [] }
  | stays {x : Answers} (hp : s.phase = .daemonize) (hm : mode ≠ .sysv) :
    Moves s (.proceed x) { s with phase := .signalTerm }
  | installTerm {x : Answers} (hp : s.phase = .signalTerm) :
    Moves s (.proceed x) { s with phase := .mainLoop, handlers := .SIGTERM :: s.handlers }
  | loops {x : Answers} (hp : s.phase = .mainLoop) :
    Moves s (.proceed x)
      { s with loop := Epoll.proceed (socket host (daemon host cfg serverIp)) s.loop x.loop }
  | returns {x : Answers} (hp : s.phase = .mainLoop) (hpc : s.loop.pc = .returned) :
    Moves s (.proceed x) { s with phase := .openFile }
  | throws {x : Answers} (hp : s.phase = .mainLoop) {fault : Fault}
    (hpc : s.loop.pc = .threw fault) :
    Moves s (.proceed x) { s with phase := .exited false }
  | opens {x : Answers} (hp : s.phase = .openFile) :
    Moves s (.proceed x)
      { s with phase := .write (writeLeases host x.time s.loop.subject.observer), file := [] }
  | cannotOpen {x : Answers} (hp : s.phase = .openFile) (hok : x.ok = false) :
    Moves s (.proceed x) { s with phase := .exited true }
  | writes {x : Answers} {rest : List Char} (hp : s.phase = .write rest) :
    Moves s (.proceed x)
      { s with phase := .write (rest.drop x.written), file := s.file ++ rest.take x.written }
  | finishes {x : Answers} {rest : List Char} (hp : s.phase = .write rest)
    (hlen : rest.length ≤ x.written) :
    Moves s (.proceed x) { s with phase := .exited true, file := s.file ++ rest.take x.written }
  | cannotWrite {x : Answers} {rest : List Char} (hp : s.phase = .write rest) (hok : x.ok = false) :
    Moves s (.proceed x) { s with phase := .exited true }
  | stores {signum : Signal} (he : s.phase.ended = false) (hh : signum ∈ s.handlers) :
    Moves s (.signal signum) { s with loop := sighandler s.loop signum }
  | ignores {signum : Signal} (he : s.phase.ended = false) (hh : signum ∉ s.handlers)
    (hi : signum ∈ s.ignored) : Moves s (.signal signum) s
  | dies {signum : Signal} (he : s.phase.ended = false) (hh : signum ∉ s.handlers)
    (hi : signum ∉ s.ignored) : Moves s (.signal signum) { s with phase := .killed }
  | killed (he : s.phase.ended = false) : Moves s .kill { s with phase := .killed }
  | ended {e : Event} (he : s.phase.ended = true) : Moves s e s

variable {host cfg serverIp mode} {s : State}

lemma moves_proceed (s : State) (x : Answers) :
    Moves host cfg serverIp mode s (.proceed x) (proceed host cfg serverIp mode s x) := by
  unfold proceed
  split <;> rename_i hp
  · exact .installInt hp
  · exact .installHup hp
  · split_ifs
    · split
      · rename_i hl
        exact .loads hp hl
      · exact .fails (Or.inl hp)
    · exact .fails (Or.inl hp)
  · split_ifs with hm
    · exact .detaches hp hm
    · exact .fails (Or.inr hp)
    · exact .stays hp hm
  · exact .installTerm hp
  · split
    · rename_i hpc
      exact .returns hp hpc
    · rename_i hpc
      exact .throws hp hpc
    · exact .loops hp
  · split_ifs with hok
    · exact .opens hp
    · exact .cannotOpen hp (by simpa using hok)
  · split_ifs with hok hlen
    · exact .finishes hp hlen
    · exact .writes hp
    · exact .cannotWrite hp (by simpa using hok)
  · exact .ended (by rw [hp]; rfl)
  · exact .ended (by rw [hp]; rfl)

lemma moves_signal (s : State) (signum : Signal) :
    Moves host cfg serverIp mode s (.signal signum) (signal s signum) := by
  unfold signal
  split_ifs with he hh hi
  · exact .ended he
  · exact .stores (by simpa using he) hh
  · exact .ignores (by simpa using he) hh hi
  · exact .dies (by simpa using he) hh hi

lemma moves_kill (s : State) : Moves host cfg serverIp mode s .kill (kill s) := by
  unfold kill
  split_ifs with he
  · exact .ended he
  · exact .killed (by simpa using he)

variable (host cfg serverIp mode) in
theorem moves (s : State) (e : Event) :
    Moves host cfg serverIp mode s e (step host cfg serverIp mode s e) := by
  cases e with
  | signal signum => exact moves_signal s signum
  | kill => exact moves_kill s
  | proceed x => exact moves_proceed s x

/-! ### The handlers -/

/-- The signals that have a handler. -/
def Phase.guarded (mode : Mode) : Phase → List Signal
  | .signalInt => []
  | .signalHup => [.SIGINT]
  | .construct => [.SIGHUP, .SIGINT]
  | .daemonize => [.SIGHUP, .SIGINT]
  | .signalTerm => if mode = .sysv then [] else [.SIGHUP, .SIGINT]
  | _ => .SIGTERM :: if mode = .sysv then [] else [.SIGHUP, .SIGINT]

/-- The signals that are ignored unless they have a handler. -/
def Phase.spared (mode : Mode) (ignored : List Signal) : Phase → List Signal
  | .signalInt | .signalHup | .construct | .daemonize => ignored
  | _ => if mode = .sysv then [] else ignored

structure Guarded (mode : Mode) (ignored : List Signal) (s : State) : Prop where
  handlers : s.phase.ended = false → s.handlers = s.phase.guarded mode
  ignored : s.phase.ended = false → s.ignored = s.phase.spared mode ignored

variable {ignored : List Signal}

lemma guarded_step (h : Guarded mode ignored s) (e : Event) :
    Guarded mode ignored (step host cfg serverIp mode s e) := by
  have hm := moves host cfg serverIp mode s e
  generalize step host cfg serverIp mode s e = s' at hm ⊢
  cases hm with
  | ended he => exact h
  | stores he hh => exact ⟨h.handlers, h.ignored⟩
  | ignores he hh hi => exact h
  | dies he hh hi | killed he => exact ⟨by simp [Phase.ended], by simp [Phase.ended]⟩
  | _ =>
    obtain ⟨hh, hi⟩ := h
    constructor <;> intro he <;> simp_all [Phase.ended, Phase.guarded, Phase.spared]

lemma guarded_run (host : ByteOrder) (cfg : SubnetConfiguration) (serverIp : UInt32) (mode : Mode)
    (ignored : List Signal) (file : List Char) (es : List Event) :
    Guarded mode ignored (run (step host cfg serverIp mode) (boot ignored file) es) :=
  invariant (I := Guarded mode ignored) (fun _ e h _ => guarded_step h e)
    ⟨fun _ => rfl, fun _ => rfl⟩ (meets_true _ _)

/-- The daemon serves, or writes its leases. -/
def Phase.serving : Phase → Bool
  | .mainLoop => true
  | .openFile => true
  | .write _ => true
  | _ => false

lemma ended_of_serving {phase : Phase} (h : phase.serving = true) : phase.ended = false := by
  cases phase <;> first | rfl | cases h

lemma guarded_of_serving {phase : Phase} (h : phase.serving = true) (mode : Mode) :
    phase.guarded mode = .SIGTERM :: if mode = .sysv then [] else [.SIGHUP, .SIGINT] := by
  cases phase <;> first | rfl | cases h

lemma spared_of_serving {phase : Phase} (h : phase.serving = true) (mode : Mode)
    (ignored : List Signal) : phase.spared mode ignored = if mode = .sysv then [] else ignored := by
  cases phase <;> first | rfl | cases h

lemma signal_phase {signum : Signal} (he : s.phase.ended = false) :
    (signal s signum).phase = .killed ↔ signum ∉ s.handlers ∧ signum ∉ s.ignored := by
  have hrunning : s.phase ≠ .killed := fun hp => by simp [hp, Phase.ended] at he
  unfold signal
  split_ifs with hended hh hi
  · simp [he] at hended
  · exact iff_of_false hrunning fun h => h.1 hh
  · exact iff_of_false hrunning fun h => h.2 hi
  · exact iff_of_true rfl ⟨hh, hi⟩

def smoothly : Event :=
  .proceed ⟨true, 100, fun _ => .zero, ⟨.interrupted, ⟨.blank, Daemon.at100, .wouldBlock⟩,
    ⟨[], .sent⟩⟩, 0⟩

/-- The leases have been loaded from the file, and the loop has handled the packets since. -/
def Loaded (host : ByteOrder) (cfg : SubnetConfiguration) (file : List Char)
    (past : List Daemon.Event) (loop : Epoll.State (SocketState LeaseTable)) : Prop :=
  ∃ time uninit leases, loadLeases host uninit time file .empty = .ok leases ∧
    Represents loop (run (Daemon.step host cfg) ⟨leases, time⟩ past) ∧
    ((∀ fault, loop.pc ≠ .threw fault) →
      Meets (Daemon.step host cfg) (Survives host cfg) ⟨leases, time⟩ past)

/-- The loop has returned, and a beginning of its leases has been written; all of them, if nothing
got in the way. -/
def Written (host : ByteOrder) (cfg : SubnetConfiguration) (calm : Prop) (file : List Char)
    (past : List Daemon.Event) (s : State) : Prop :=
  Loaded host cfg file past s.loop ∧ s.loop.pc = .returned ∧
    ∃ time n, s.file = (writeLeases host time s.loop.subject.observer).take n ∧
      (calm → (writeLeases host time s.loop.subject.observer).length ≤ n)

/-- What holds in each phase. `file` are the contents of the lease file before, `past` the packets
that were handled. -/
def Lives (host : ByteOrder) (cfg : SubnetConfiguration) (calm : Prop) (file : List Char)
    (past : List Daemon.Event) (s : State) : Prop :=
  match s.phase with
  | .signalInt => s.file = file ∧ past = []
  | .signalHup => s.file = file ∧ past = []
  | .construct => s.file = file ∧ past = []
  | .daemonize => s.file = file ∧ Loaded host cfg file past s.loop
  | .signalTerm => s.file = file ∧ Loaded host cfg file past s.loop
  | .mainLoop => s.file = file ∧ Loaded host cfg file past s.loop
  | .openFile => s.file = file ∧ Loaded host cfg file past s.loop ∧ s.loop.pc = .returned
  | .write rest => Loaded host cfg file past s.loop ∧ s.loop.pc = .returned ∧
    ∃ time, s.file ++ rest = writeLeases host time s.loop.subject.observer
  | .exited true => s.file = file ∧ ¬ calm ∨ Written host cfg calm file past s
  | .exited false => s.file = file
  | .killed => s.file = file ∨ ¬ calm ∧ Written host cfg calm file past s

def Phase.writing : Phase → Bool
  | .openFile => true
  | .write _ => true
  | _ => false

/-- Nothing gets in the way while the file is written: no error of the stream, for a SysV daemon
neither `SIGINT` nor `SIGHUP`, and no other signal that ends the process. -/
def Undisturbed (mode : Mode) (s : State) : Event → Prop
  | .signal signum => s.phase.writing = true → mode = .sysv → signum = .SIGTERM
  | .kill => s.phase.writing = false
  | .proceed x => s.phase.writing = true → x.ok = true

lemma loaded_sighandler {file : List Char} {past : List Daemon.Event}
    {loop : Epoll.State (SocketState LeaseTable)} (h : Loaded host cfg file past loop)
    (signum : Signal) : Loaded host cfg file past (sighandler loop signum) := by
  obtain ⟨time, uninit, leases, hl, hr, hs⟩ := h
  refine ⟨time, uninit, leases, hl, hr, fun hpc => hs fun fault hthrew => hpc fault ?_⟩
  rw [sighandler_pc_of_ne (by simp [hthrew]), hthrew]

lemma loaded_proceed {file : List Char} {past : List Daemon.Event}
    {loop : Epoll.State (SocketState LeaseTable)} (h : Loaded host cfg file past loop)
    (answer : Answer Arrival Output) :
    Loaded host cfg file (past ++ packets host serverIp loop (.proceed answer))
      (Epoll.proceed (socket host (daemon host cfg serverIp)) loop answer) := by
  obtain ⟨time, uninit, leases, hl, hr, hs⟩ := h
  refine ⟨time, uninit, leases, hl, ?_, fun hpc => meets_append.mpr ⟨hs fun fault hthrew => ?_, ?_⟩⟩
  · rw [run_append]
    exact (step_refines loop _ (.proceed answer) hr).1
  · exact hpc fault (pc_of_threw _ hthrew (.proceed answer))
  · exact survives_of_step hr hpc

lemma written_of_write {calm : Prop} {file : List Char} {past : List Daemon.Event}
    (hc : ¬ calm) (hl : Loaded host cfg file past s.loop) (hpc : s.loop.pc = .returned)
    {rest : List Char} {time : UInt64}
    (ht : s.file ++ rest = writeLeases host time s.loop.subject.observer) :
    Written host cfg calm file past s := by
  refine ⟨hl, hpc, time, s.file.length, ?_, fun h => absurd h hc⟩
  rw [← ht, List.take_left]

lemma serving_of_writing {phase : Phase} (h : phase.writing = true) : phase.serving = true := by
  cases phase <;> first | rfl | cases h

lemma mem_guarded {signum : Signal} (hg : Guarded mode ignored s) (hw : s.phase.writing = true)
    (hu : mode = .sysv → signum = .SIGTERM) : signum ∈ s.handlers := by
  have hserving := serving_of_writing hw
  rw [hg.handlers (ended_of_serving hserving), guarded_of_serving hserving]
  by_cases hm : mode = .sysv
  · simp [hu hm]
  · cases signum <;> simp [hm]

section Step

variable {calm : Prop} {file : List Char} {past : List Daemon.Event}

lemma lives_sighandler {signum : Signal} (he : s.phase.ended = false)
    (h : Lives host cfg calm file past s) :
    Lives host cfg calm file past { s with loop := sighandler s.loop signum } := by
  have hreturned (hpc : s.loop.pc = .returned) : (sighandler s.loop signum).pc = .returned :=
    (sighandler_pc_of_ne (by simp [hpc]) signum).trans hpc
  cases hp : s.phase with
  | signalInt | signalHup | construct =>
    simp only [Lives, hp] at h ⊢
    exact h
  | daemonize | signalTerm | mainLoop =>
    simp only [Lives, hp] at h ⊢
    exact ⟨h.1, loaded_sighandler h.2 signum⟩
  | openFile =>
    simp only [Lives, hp] at h ⊢
    exact ⟨h.1, loaded_sighandler h.2.1 signum, hreturned h.2.2⟩
  | write rest =>
    simp only [Lives, hp] at h ⊢
    exact ⟨loaded_sighandler h.1 signum, hreturned h.2.1, h.2.2⟩
  | exited success | killed => simp [hp, Phase.ended] at he

lemma lives_killed (he : s.phase.ended = false) (h : Lives host cfg calm file past s)
    (hc : s.phase.writing = true → ¬ calm) :
    Lives host cfg calm file past { s with phase := .killed } := by
  cases hp : s.phase with
  | signalInt | signalHup | construct | daemonize | signalTerm | mainLoop | openFile =>
    simp only [Lives, hp] at h ⊢
    exact Or.inl h.1
  | write rest =>
    have hcalm : ¬ calm := hc (by rw [hp]; rfl)
    simp only [Lives, hp] at h ⊢
    obtain ⟨hl, hpc, time, ht⟩ := h
    exact Or.inr ⟨hcalm, written_of_write hcalm hl hpc ht⟩
  | exited success | killed => simp [hp, Phase.ended] at he

lemma lives_loops (h : Lives host cfg calm file past s) (x : Answers)
    (hp : s.phase = .mainLoop) :
    Lives host cfg calm file (past ++ packets host serverIp s.loop (.proceed x.loop))
      { s with loop := Epoll.proceed (socket host (daemon host cfg serverIp)) s.loop x.loop } := by
  simp only [Lives, hp] at h ⊢
  exact ⟨h.1, loaded_proceed h.2 _⟩

lemma lives_writes (h : Lives host cfg calm file past s) {rest : List Char}
    (hp : s.phase = .write rest) (n : ℕ) :
    Lives host cfg calm file past
      { s with phase := .write (rest.drop n), file := s.file ++ rest.take n } := by
  simp only [Lives, hp] at h ⊢
  obtain ⟨hl, hpc, time, ht⟩ := h
  refine ⟨hl, hpc, time, ?_⟩
  rw [List.append_assoc, List.take_append_drop, ht]

lemma lives_finishes (h : Lives host cfg calm file past s) {rest : List Char}
    (hp : s.phase = .write rest) {n : ℕ} (hlen : rest.length ≤ n) :
    Lives host cfg calm file past
      { s with phase := .exited true, file := s.file ++ rest.take n } := by
  simp only [Lives, hp] at h ⊢
  obtain ⟨hl, hpc, time, ht⟩ := h
  refine Or.inr ⟨hl, hpc, time, (writeLeases host time s.loop.subject.observer).length, ?_,
    fun _ => Nat.le_refl _⟩
  rw [List.take_of_length_le hlen, List.take_length, ht]

lemma lives_streamError (h : Lives host cfg calm file past s) (hw : s.phase.writing = true)
    (hc : ¬ calm) : Lives host cfg calm file past { s with phase := .exited true } := by
  cases hp : s.phase with
  | openFile =>
    simp only [Lives, hp] at h ⊢
    exact Or.inl ⟨h.1, hc⟩
  | write rest =>
    simp only [Lives, hp] at h ⊢
    obtain ⟨hl, hpc, time, ht⟩ := h
    exact Or.inr (written_of_write hc hl hpc ht)
  | _ => simp [hp, Phase.writing] at hw

lemma lives_proceed (h : Lives host cfg calm file past s) {x : Answers}
    (hu : calm → s.phase.writing = true → x.ok = true) :
    Lives host cfg calm file (past ++ handled host serverIp s (.proceed x))
      (proceed host cfg serverIp mode s x) := by
  have hfailed (hok : x.ok = false) (hw : s.phase.writing = true) : ¬ calm := fun hc => by
    simp [hu hc hw] at hok
  have hm : Moves host cfg serverIp mode s (.proceed x) (proceed host cfg serverIp mode s x) :=
    moves_proceed s x
  generalize proceed host cfg serverIp mode s x = s' at hm ⊢
  cases hm with
  | installInt hp | installHup hp | detaches hp _ | stays hp _ | installTerm hp =>
    simp only [Lives, hp, handled, List.append_nil] at h ⊢
    exact h
  | loads hp hl =>
    -- the loop starts here, with no packet handled yet
    simp only [Lives, hp, handled, List.append_nil] at h ⊢
    obtain ⟨rfl, rfl⟩ := h
    exact ⟨rfl, _, _, _, hl, rfl, fun _ => trivial⟩
  | fails hp =>
    rcases hp with hp | hp <;> simp only [Lives, hp] at h ⊢ <;> exact h.1
  | loops hp =>
    have hn : handled host serverIp s (.proceed x) = packets host serverIp s.loop
        (.proceed x.loop) := by simp only [handled, hp]
    rw [hn]
    exact lives_loops h x hp
  | returns hp hpc =>
    simp only [Lives, hp, handled, packets, hpc, List.append_nil] at h ⊢
    exact ⟨h.1, h.2, trivial⟩
  | throws hp hpc =>
    simp only [Lives, hp] at h ⊢
    exact h.1
  | opens hp =>
    simp only [Lives, hp, handled, List.append_nil] at h ⊢
    exact ⟨h.2.1, h.2.2, _, rfl⟩
  | writes hp =>
    simp only [handled, hp, List.append_nil]
    exact lives_writes h hp _
  | finishes hp hlen =>
    simp only [handled, hp, List.append_nil]
    exact lives_finishes h hp hlen
  | cannotOpen hp hok | cannotWrite hp hok =>
    have hw : s.phase.writing = true := by rw [hp]; rfl
    simp only [handled, hp, List.append_nil]
    exact lives_streamError h hw (hfailed hok hw)
  | ended he =>
    have hn : handled host serverIp s (.proceed x) = [] := by
      cases hp : s.phase <;> simp_all [handled, Phase.ended]
    rw [hn, List.append_nil]
    exact h

lemma lives_signal (hg : Guarded mode ignored s) (h : Lives host cfg calm file past s)
    {signum : Signal} (hu : calm → Undisturbed mode s (.signal signum)) :
    Lives host cfg calm file past (signal s signum) := by
  unfold signal
  split_ifs with he hh hi
  · exact h
  · exact lives_sighandler (by simpa using he) h
  · exact h
  · exact lives_killed (by simpa using he) h fun hw hc => hh (mem_guarded hg hw (hu hc hw))

lemma lives_kill (h : Lives host cfg calm file past s)
    (hu : calm → s.phase.writing = false) : Lives host cfg calm file past (kill s) := by
  unfold kill
  split_ifs with he
  · exact h
  · refine lives_killed (by simpa using he) h fun hw hc => ?_
    simp [hu hc] at hw

lemma lives_step (hg : Guarded mode ignored s) (h : Lives host cfg calm file past s) {e : Event}
    (hu : calm → Undisturbed mode s e) :
    Lives host cfg calm file (past ++ handled host serverIp s e)
      (step host cfg serverIp mode s e) := by
  cases e with
  | proceed x => exact lives_proceed h hu
  | signal signum =>
    rw [handled, List.append_nil]
    exact lives_signal hg h hu
  | kill =>
    rw [handled, List.append_nil]
    exact lives_kill h hu

end Step

lemma lives_run {calm : Prop} (ignored : List Signal) (file : List Char) {es : List Event}
    (h : Meets (step host cfg serverIp mode) (fun s e => calm → Undisturbed mode s e)
      (boot ignored file) es) :
    Lives host cfg calm file
      (outs (step host cfg serverIp mode) (handled host serverIp) (boot ignored file) es).flatten
      (run (step host cfg serverIp mode) (boot ignored file) es) := by
  have hboot : Guarded mode ignored (boot ignored file) ∧
      Lives host cfg calm file [] (boot ignored file) :=
    ⟨⟨fun _ => rfl, fun _ => rfl⟩, rfl, rfl⟩
  refine (invariant_outs (handled host serverIp)
    (I := fun past s => Guarded mode ignored s ∧ Lives host cfg calm file past.flatten s)
    (fun past s e hI hu => ⟨guarded_step hI.1 e, ?_⟩) hboot h).2
  rw [List.flatten_append, List.flatten_singleton]
  exact lives_step hI.1 hI.2 hu

/-! ### A process is a life of the program -/

lemma run_packets {file : List Char} {leases : LeaseTable} {clock : UInt64}
    {evs : List Daemon.Event}
    (h : Meets (Daemon.step host cfg) (Survives host cfg) ⟨leases, clock⟩ evs) :
    run (Restart.step host cfg) ⟨some leases, file, clock⟩ (evs.map .packet) =
      ⟨some (run (Daemon.step host cfg) ⟨leases, clock⟩ evs).leases, file,
        (run (Daemon.step host cfg) ⟨leases, clock⟩ evs).clock⟩ := by
  induction evs generalizing leases clock with
  | nil => rfl
  | cons ev evs ih =>
    have hstep : Restart.step host cfg ⟨some leases, file, clock⟩ (.packet ev) =
        ⟨some (Daemon.step host cfg ⟨leases, clock⟩ ev).leases, file,
          (Daemon.step host cfg ⟨leases, clock⟩ ev).clock⟩ := by
      simp only [Restart.step, if_pos h.1]
      rfl
    calc run (Restart.step host cfg) ⟨some leases, file, clock⟩ ((ev :: evs).map .packet)
        = run (Restart.step host cfg)
            ⟨some (Daemon.step host cfg ⟨leases, clock⟩ ev).leases, file,
              (Daemon.step host cfg ⟨leases, clock⟩ ev).clock⟩ (evs.map .packet) := by
          rw [List.map_cons, run_cons, hstep]
      _ = _ := ih h.2

lemma run_life {file : List Char} {past : List Daemon.Event}
    {loop : Epoll.State (SocketState LeaseTable)} (h : Loaded host cfg file past loop)
    (hpc : loop.pc = .returned) (clock : UInt64) : ∃ time uninit clock',
      run (Restart.step host cfg) ⟨none, file, clock⟩ (.start time uninit :: past.map .packet) =
        ⟨some loop.subject.observer, file, clock'⟩ := by
  obtain ⟨time, uninit, leases, hl, hr, hs⟩ := h
  refine ⟨time, uninit, (run (Daemon.step host cfg) ⟨leases, time⟩ past).clock, ?_⟩
  have hstart : Restart.step host cfg ⟨none, file, clock⟩ (.start time uninit) =
      ⟨some leases, file, time⟩ := by
    simp only [Restart.step, hl]
  rw [run_cons, hstart, run_packets (hs (by simp [hpc])), ← hr]

/-- A file that was written is what a life leaves behind that is cut off, or stopped in order if
nothing has got in the way. -/
lemma life_of_written {calm : Prop} {file : List Char} {past : List Daemon.Event} {s : State}
    (h : Written host cfg calm file past s) (clock : UInt64) : ∃ time uninit time' n,
      run (Restart.step host cfg) ⟨none, file, clock⟩
          (.start time uninit :: past.map .packet ++ [.cut time' n]) = ⟨none, s.file, time'⟩ ∧
        (calm → run (Restart.step host cfg) ⟨none, file, clock⟩
          (.start time uninit :: past.map .packet ++ [.stop time']) = ⟨none, s.file, time'⟩) := by
  obtain ⟨hl, hpc, time', n, hfile, hn⟩ := h
  obtain ⟨time, uninit, clock', hlife⟩ := run_life hl hpc clock
  refine ⟨time, uninit, time', n, ?_, fun hc => ?_⟩
  · rw [run_append, hlife, hfile]
    rfl
  · rw [run_append, hlife, hfile, List.take_of_length_le (hn hc)]
    rfl

end TinyDhcpd.Lifecycle
