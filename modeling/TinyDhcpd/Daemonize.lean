import TinyDhcpd.Run

/-!
`Daemon::daemonize` for a SysV daemon: three processes and a pipe.

The process that was started forks a child, which starts a session and forks the daemon. The
daemon sets itself up and writes a 1 into the pipe; where the child or the daemon give up they
write a 0, or nothing. The process that was started waits for the byte, or for the end of the
pipe, and turns it into its exit status. Whether the pipe was opened, written to and read from
successfully is not looked at. The signal handlers have been reset, so that any signal ends the
process it is sent to, and so does a write into a pipe that nobody can read from.
-/

namespace TinyDhcpd.Daemonize

open Run

inductive Exit
  | success
  | failure
  deriving DecidableEq

inductive Process
  | parent
  | child
  | daemon
  deriving DecidableEq

/-- The process that was started. An exception ends it by way of `main`. -/
inductive ParentPc
  | closeRange
  | resetHandlers
  | sigprocmask
  | openPipe
  | fork
  | closeWrite
  | reading
  | exited (status : Exit)
  | killed
  deriving DecidableEq

inductive ChildPc
  | unborn
  | closeRead
  | setsid
  | fork
  | writeZero
  | finish
  | exited (status : Exit)
  | killed
  deriving DecidableEq

/-- The daemon, from the second `fork` on. It serves when it has returned from `daemonize`. -/
inductive DaemonPc
  | unborn
  | detach
  | currentPath
  | pidFile
  | capGetFlag
  | capSetProc
  | writeZero
  | setIds
  | report
  | closePipe
  | serving
  | exited
  | killed
  deriving DecidableEq

/-- The processes, whether `pipe` has failed, and the bytes in the pipe. Where it has failed the
descriptors are indeterminate; the calls on them are taken to fail. -/
structure State where
  parent : ParentPc
  child : ChildPc
  daemon : DaemonPc
  pipeFailed : Bool
  pipe : List UInt8
  deriving DecidableEq

def init : State := ⟨.closeRange, .unborn, .unborn, false, []⟩

/-- A process makes its next call, which succeeds or not, or is ended by a signal. At
`capGetFlag`, success is that the daemon has the capability already. -/
inductive Event
  | proceed (who : Process) (ok : Bool)
  | kill (who : Process)

/-- The write end of the pipe is open in the child. -/
def ChildPc.writes : ChildPc → Bool
  | .closeRead | .setsid | .fork | .writeZero | .finish => true
  | _ => false

/-- The write end of the pipe is open in the daemon. -/
def DaemonPc.writes : DaemonPc → Bool
  | .detach | .currentPath | .pidFile | .capGetFlag | .capSetProc | .writeZero | .setIds | .report
  | .closePipe => true
  | _ => false

/-- Somebody can still write into the pipe. -/
def State.hasWriter (s : State) : Bool :=
  s.parent = .closeWrite || s.child.writes || s.daemon.writes

/-- Somebody can still read from the pipe. -/
def State.hasReader (s : State) : Bool :=
  s.parent = .closeWrite || s.parent = .reading || s.child = .closeRead

/-- A `write` of one byte, when it does not end the process. -/
def State.written (s : State) (ok : Bool) (byte : UInt8) : List UInt8 :=
  if s.pipeFailed || !ok then s.pipe else s.pipe ++ [byte]

/-- A `write` ends the process: there is a pipe, and nobody to read from it. -/
def State.broken (s : State) : Bool := !s.pipeFailed && !s.hasReader

def stepParent (s : State) (ok : Bool) : State :=
  match s.parent with
  | .closeRange => { s with parent := if ok then .resetHandlers else .exited .failure }
  | .resetHandlers => { s with parent := .sigprocmask }
  | .sigprocmask => { s with parent := if ok then .openPipe else .exited .failure }
  | .openPipe => { s with parent := .fork, pipeFailed := !ok }
  | .fork =>
    if ok then { s with parent := .closeWrite, child := .closeRead }
    else { s with parent := .exited .failure }
  | .closeWrite => { s with parent := .reading }
  | .reading =>
    -- where `read` fails the byte is the 0 it was set to
    if s.pipeFailed || !ok then { s with parent := .exited .failure }
    else
      match s.pipe with
      | byte :: rest =>
        { s with parent := .exited (if byte = 1 then .success else .failure), pipe := rest }
      | [] => if s.hasWriter then s else { s with parent := .exited .failure }
  | .exited _ => s
  | .killed => s

def stepChild (s : State) (ok : Bool) : State :=
  match s.child with
  | .closeRead => { s with child := .setsid }
  | .setsid => { s with child := .fork }
  | .fork =>
    if ok then { s with child := .finish, daemon := .detach } else { s with child := .writeZero }
  | .writeZero =>
    if s.broken then { s with child := .killed }
    else { s with child := .exited .failure, pipe := s.written ok 0 }
  | .finish => { s with child := .exited .success }
  | .unborn => s
  | .exited _ => s
  | .killed => s

def stepDaemon (s : State) (ok : Bool) : State :=
  match s.daemon with
  | .detach => { s with daemon := .currentPath }
  | .currentPath => { s with daemon := if ok then .pidFile else .exited }
  | .pidFile => { s with daemon := .capGetFlag }
  | .capGetFlag => { s with daemon := if ok then .setIds else .capSetProc }
  | .capSetProc => { s with daemon := if ok then .setIds else .writeZero }
  | .writeZero =>
    if s.broken then { s with daemon := .killed }
    else { s with daemon := .exited, pipe := s.written ok 0 }
  | .setIds => { s with daemon := .report }
  | .report =>
    if s.broken then { s with daemon := .killed }
    else { s with daemon := .closePipe, pipe := s.written ok 1 }
  | .closePipe => { s with daemon := .serving }
  | .serving => s
  | .unborn => s
  | .exited => s
  | .killed => s

/-- A process that has ended, or does not exist yet, gets no signal. -/
def kill (s : State) : Process → State
  | .parent =>
    match s.parent with
    | .exited _ => s
    | _ => { s with parent := .killed }
  | .child =>
    match s.child with
    | .unborn => s
    | .exited _ => s
    | _ => { s with child := .killed }
  | .daemon =>
    match s.daemon with
    | .unborn => s
    | .exited => s
    | _ => { s with daemon := .killed }

def step (s : State) : Event → State
  | .proceed .parent ok => stepParent s ok
  | .proceed .child ok => stepChild s ok
  | .proceed .daemon ok => stepDaemon s ok
  | .kill who => kill s who

/-! ### What a step can do -/

def ParentPc.beforeFork : ParentPc → Bool
  | .closeRange | .resetHandlers | .sigprocmask | .openPipe | .fork => true
  | _ => false

/-- The child has not got past its `fork`, or not past reporting that it failed. -/
def ChildPc.beforeFork : ChildPc → Bool
  | .closeRead | .setsid | .fork | .writeZero => true
  | _ => false

def DaemonPc.beforeReport : DaemonPc → Bool
  | .detach | .currentPath | .pidFile | .capGetFlag | .capSetProc | .writeZero | .setIds
  | .report => true
  | _ => false

/-- The steps a process has before it at most, those before its birth included. -/
def ParentPc.left : ParentPc → ℕ
  | .closeRange => 7
  | .resetHandlers => 6
  | .sigprocmask => 5
  | .openPipe => 4
  | .fork => 3
  | .closeWrite => 2
  | .reading => 1
  | .exited _ => 0
  | .killed => 0

@[inherit_doc ParentPc.left]
def ChildPc.left : ChildPc → ℕ
  | .unborn => 5
  | .closeRead => 4
  | .setsid => 3
  | .fork => 2
  | .writeZero => 1
  | .finish => 1
  | .exited _ => 0
  | .killed => 0

@[inherit_doc ParentPc.left]
def DaemonPc.left : DaemonPc → ℕ
  | .unborn => 11
  | .detach => 10
  | .currentPath => 9
  | .pidFile => 8
  | .capGetFlag => 7
  | .capSetProc => 6
  | .writeZero => 5
  | .setIds => 5
  | .report => 4
  | .closePipe => 3
  | .serving => 2
  | .exited => 0
  | .killed => 0

inductive ParentMoves (s : State) (ok : Bool) : State → Prop
  | stays : ParentMoves s ok s
  | advances {pc : ParentPc} (h : s.parent.beforeFork = true) (h' : pc.beforeFork = true)
    (hl : pc.left < s.parent.left) : ParentMoves s ok { s with parent := pc }
  | opens (h : s.parent = .openPipe) :
    ParentMoves s ok { s with parent := .fork, pipeFailed := !ok }
  | aborts (h : s.parent.beforeFork = true) : ParentMoves s ok { s with parent := .exited .failure }
  | forks (h : s.parent = .fork) :
    ParentMoves s ok { s with parent := .closeWrite, child := .closeRead }
  | waits (h : s.parent = .closeWrite) : ParentMoves s ok { s with parent := .reading }
  | cannotRead (h : s.parent = .reading) (hf : s.pipeFailed = true ∨ ok = false) :
    ParentMoves s ok { s with parent := .exited .failure }
  | reads (h : s.parent = .reading) {byte : UInt8} {rest : List UInt8}
    (hp : s.pipe = byte :: rest) :
    ParentMoves s ok
      { s with parent := .exited (if byte = 1 then .success else .failure), pipe := rest }
  | readsEnd (h : s.parent = .reading) (hp : s.pipe = []) (hw : s.hasWriter = false) :
    ParentMoves s ok { s with parent := .exited .failure }

inductive ChildMoves (s : State) : State → Prop
  | stays : ChildMoves s s
  | advances {pc : ChildPc} (h : s.child.beforeFork = true) (h' : pc.beforeFork = true)
    (hl : pc.left < s.child.left) : ChildMoves s { s with child := pc }
  | forks (h : s.child = .fork) : ChildMoves s { s with child := .finish, daemon := .detach }
  | breaks (h : s.child = .writeZero) : ChildMoves s { s with child := .killed }
  | fails (h : s.child = .writeZero) {pipe : List UInt8}
    (hp : pipe = s.pipe ∨ pipe = s.pipe ++ [0]) :
    ChildMoves s { s with child := .exited .failure, pipe := pipe }
  | finishes (h : s.child = .finish) : ChildMoves s { s with child := .exited .success }

inductive DaemonMoves (s : State) (ok : Bool) : State → Prop
  | stays : DaemonMoves s ok s
  | advances {pc : DaemonPc} (h : s.daemon.beforeReport = true) (h' : pc.beforeReport = true)
    (hl : pc.left < s.daemon.left) : DaemonMoves s ok { s with daemon := pc }
  | throws (h : s.daemon.beforeReport = true) : DaemonMoves s ok { s with daemon := .exited }
  | breaks (h : s.daemon.beforeReport = true) : DaemonMoves s ok { s with daemon := .killed }
  | fails (h : s.daemon = .writeZero) {pipe : List UInt8}
    (hp : pipe = s.pipe ∨ pipe = s.pipe ++ [0]) :
    DaemonMoves s ok { s with daemon := .exited, pipe := pipe }
  | reports (h : s.daemon = .report) (hr : s.hasReader = true) :
    DaemonMoves s ok { s with daemon := .closePipe, pipe := s.pipe ++ [1] }
  | cannotReport (h : s.daemon = .report) (hf : s.pipeFailed = true ∨ ok = false) :
    DaemonMoves s ok { s with daemon := .closePipe }
  | serves (h : s.daemon = .closePipe) : DaemonMoves s ok { s with daemon := .serving }

inductive Kills (s : State) : State → Prop
  | stays : Kills s s
  | parent (h : s.parent.left ≠ 0) : Kills s { s with parent := .killed }
  | child (h : s.child.left ≠ 0) (hb : s.child ≠ .unborn) : Kills s { s with child := .killed }
  | daemon (h : s.daemon.left ≠ 0) (hb : s.daemon ≠ .unborn) : Kills s { s with daemon := .killed }

def Moves (s : State) : Event → State → Prop
  | .proceed .parent ok => ParentMoves s ok
  | .proceed .child _ => ChildMoves s
  | .proceed .daemon ok => DaemonMoves s ok
  | .kill _ => Kills s

lemma written_cases (s : State) (ok : Bool) (byte : UInt8) :
    s.written ok byte = s.pipe ∨ s.written ok byte = s.pipe ++ [byte] := by
  unfold State.written
  split_ifs <;> simp

lemma parentMoves (s : State) (ok : Bool) : ParentMoves s ok (stepParent s ok) := by
  unfold stepParent
  split <;> rename_i hpc
  · cases ok with
    | true => exact .advances (by rw [hpc]; rfl) rfl (by rw [hpc]; decide)
    | false => exact .aborts (by rw [hpc]; rfl)
  · exact .advances (by rw [hpc]; rfl) rfl (by rw [hpc]; decide)
  · cases ok with
    | true => exact .advances (by rw [hpc]; rfl) rfl (by rw [hpc]; decide)
    | false => exact .aborts (by rw [hpc]; rfl)
  · exact .opens hpc
  · cases ok with
    | true => exact .forks hpc
    | false => exact .aborts (by rw [hpc]; rfl)
  · exact .waits hpc
  · split
    · rename_i hf
      exact .cannotRead hpc (by simpa using hf)
    · split
      · rename_i hp
        exact .reads hpc hp
      · rename_i hp
        split_ifs with hw
        · exact .stays
        · exact .readsEnd hpc hp (by simpa using hw)
  · exact .stays
  · exact .stays

lemma childMoves (s : State) (ok : Bool) : ChildMoves s (stepChild s ok) := by
  unfold stepChild
  split <;> rename_i hpc
  · exact .advances (by rw [hpc]; rfl) rfl (by rw [hpc]; decide)
  · exact .advances (by rw [hpc]; rfl) rfl (by rw [hpc]; decide)
  · cases ok with
    | true => exact .forks hpc
    | false => exact .advances (by rw [hpc]; rfl) rfl (by rw [hpc]; decide)
  · split_ifs
    · exact .breaks hpc
    · exact .fails hpc (written_cases s ok 0)
  · exact .finishes hpc
  · exact .stays
  · exact .stays
  · exact .stays

lemma daemonMoves (s : State) (ok : Bool) : DaemonMoves s ok (stepDaemon s ok) := by
  unfold stepDaemon
  split <;> rename_i hpc
  · exact .advances (by rw [hpc]; rfl) rfl (by rw [hpc]; decide)
  · cases ok with
    | true => exact .advances (by rw [hpc]; rfl) rfl (by rw [hpc]; decide)
    | false => exact .throws (by rw [hpc]; rfl)
  · exact .advances (by rw [hpc]; rfl) rfl (by rw [hpc]; decide)
  · cases ok with
    | true => exact .advances (by rw [hpc]; rfl) rfl (by rw [hpc]; decide)
    | false => exact .advances (by rw [hpc]; rfl) rfl (by rw [hpc]; decide)
  · cases ok with
    | true => exact .advances (by rw [hpc]; rfl) rfl (by rw [hpc]; decide)
    | false => exact .advances (by rw [hpc]; rfl) rfl (by rw [hpc]; decide)
  · split_ifs
    · exact .breaks (by rw [hpc]; rfl)
    · exact .fails hpc (written_cases s ok 0)
  · exact .advances (by rw [hpc]; rfl) rfl (by rw [hpc]; decide)
  · split_ifs with hb
    · exact .breaks (by rw [hpc]; rfl)
    · unfold State.written
      split_ifs with hf
      · exact .cannotReport hpc (by simpa using hf)
      · simp only [Bool.or_eq_true, not_or, Bool.not_eq_true] at hf
        exact .reports hpc (by simpa [State.broken, hf.1] using hb)
  · exact .serves hpc
  · exact .stays
  · exact .stays
  · exact .stays
  · exact .stays

lemma kills (s : State) (who : Process) : Kills s (kill s who) := by
  obtain ⟨parent, child, daemon, pipeFailed, pipe⟩ := s
  cases who with
  | parent => cases parent <;> first | exact .stays | exact .parent (by simp [ParentPc.left])
  | child => cases child <;> first | exact .stays | exact .child (by simp [ChildPc.left]) (by simp)
  | daemon =>
    cases daemon <;> first | exact .stays | exact .daemon (by simp [DaemonPc.left]) (by simp)

theorem moves (s : State) (e : Event) : Moves s e (step s e) := by
  cases e with
  | proceed who ok =>
    cases who with
    | parent => exact parentMoves s ok
    | child => exact childMoves s ok
    | daemon => exact daemonMoves s ok
  | kill who => exact kills s who

/-! ### What the exit status says -/

/-- There is no daemon any more, or there is none and nobody to fork it. -/
structure State.GivenUp (s : State) : Prop where
  daemon : s.daemon = .unborn ∨ s.daemon = .exited ∨ s.daemon = .killed
  child : s.child.beforeFork = false
  parent : s.parent.beforeFork = false

lemma givenUp_step {s : State} (h : s.GivenUp) (e : Event) : (step s e).GivenUp := by
  obtain ⟨hd, hc, hp⟩ := h
  have hm := moves s e
  generalize step s e = s' at hm ⊢
  cases e with
  | proceed who ok =>
    cases who <;> cases hm <;> constructor <;>
      grind [ParentPc.beforeFork, ChildPc.beforeFork, DaemonPc.beforeReport]
  | kill who => cases hm <;> constructor <;> grind [ParentPc.beforeFork, ChildPc.beforeFork]

/-- The calls that carry the report do not fail: `pipe`, `read`, and the `write` of the 1. -/
def Reliable (s : State) : Event → Prop
  | .proceed .parent ok => s.parent = .openPipe ∨ s.parent = .reading → ok = true
  | .proceed .daemon ok => s.daemon = .report → ok = true
  | _ => True

/-- What holds between any two steps. `past` are the places the daemon has been at, and `calm`
that the report was carried. -/
structure Coherent (calm : Prop) (past : List DaemonPc) (s : State) : Prop where
  unforked : s.parent.beforeFork = true → s.child = .unborn
  unborn : s.child = .unborn ∨ s.child.beforeFork = true → s.daemon = .unborn ∧ s.pipe = []
  silent : s.daemon.beforeReport = true → s.pipe = []
  pipe : s.pipe = [] ∨ s.pipe = [0] ∧ s.GivenUp ∨ s.pipe = [1] ∧ .closePipe ∈ past
  success : s.parent = .exited .success → .closePipe ∈ past
  piped : calm → s.pipeFailed = false
  failure : calm → s.parent = .exited .failure → s.GivenUp
  reported : calm → s.daemon = .closePipe ∨ s.daemon = .serving → s.parent = .exited .success ∨
    s.parent = .killed ∨ (s.parent = .closeWrite ∨ s.parent = .reading) ∧ s.pipe = [1]

lemma coherent_init (calm : Prop) : Coherent calm [] init := by
  constructor <;> simp [init, ChildPc.beforeFork, DaemonPc.beforeReport]

variable {calm : Prop} {past : List DaemonPc} {s s' : State}

lemma Coherent.forked (h : Coherent calm past s) (hd : s.daemon ≠ .unborn) :
    s.child.beforeFork = false ∧ s.parent.beforeFork = false := by
  constructor
  · by_contra hc
    exact hd (h.unborn (Or.inr (by simpa using hc))).1
  · by_contra hc
    exact hd (h.unborn (Or.inl (h.unforked (by simpa using hc)))).1

lemma Coherent.givenUp_of_end (h : Coherent calm past s) (hcalm : calm)
    (hpc : s.parent = .reading) (hp : s.pipe = []) (hw : s.hasWriter = false) :
    State.GivenUp { s with parent := .exited .failure } := by
  simp only [State.hasWriter, Bool.or_eq_false_iff] at hw
  obtain ⟨⟨-, hc⟩, hd⟩ := hw
  have hserving : s.daemon ≠ .serving :=
    fun hs => by simpa [hpc, hp] using h.reported hcalm (Or.inr hs)
  refine ⟨?_, ?_, rfl⟩
  · cases hs : s.daemon <;> simp_all [DaemonPc.writes]
  · cases hs : s.child <;> simp_all [ChildPc.writes, ChildPc.beforeFork]

lemma ne_unborn (h : s.daemon.beforeReport = true) : s.daemon ≠ .unborn := by
  intro hd
  simp [hd, DaemonPc.beforeReport] at h

lemma Coherent.after (h : Coherent calm past s) (pc : DaemonPc) :
    Coherent calm (past ++ [pc]) s :=
  { h with
    pipe := h.pipe.imp_right (Or.imp_right (And.imp_right (List.mem_append_left _)))
    success := List.mem_append_left _ ∘ h.success }

/-- Up to its `fork` the first process is alone. -/
lemma Coherent.alone (h : Coherent calm past s) (hb : s.parent.beforeFork = true) {pc : ParentPc}
    {pipeFailed : Bool} (hpc : pc ≠ .exited .success) (hpiped : calm → pipeFailed = false) :
    Coherent calm past { s with parent := pc, pipeFailed := pipeFailed } := by
  have hchild := h.unforked hb
  obtain ⟨hdaemon, hpipe⟩ := h.unborn (Or.inl hchild)
  refine { h with
    unforked := fun _ => hchild
    pipe := Or.inl hpipe
    success := fun hp => absurd hp hpc
    piped := hpiped
    failure := fun _ hp => ⟨Or.inl hdaemon, by simp [hchild, ChildPc.beforeFork], ?_⟩
    reported := by simp [hdaemon] }
  rw [show pc = .exited .failure from hp]
  rfl

lemma State.GivenUp.parent_moves (h : s.GivenUp) {pc : ParentPc} (hpc : pc.beforeFork = false)
    (pipe : List UInt8) : State.GivenUp { s with parent := pc, pipe := pipe } :=
  ⟨h.daemon, h.child, hpc⟩

lemma coherent_reads (h : Coherent calm past s) (hpc : s.parent = .reading) {byte : UInt8}
    {rest : List UInt8} (hp : s.pipe = byte :: rest) : Coherent calm past
      { s with parent := .exited (if byte = 1 then .success else .failure), pipe := rest } := by
  rcases h.pipe with hn | ⟨h0, hgiven⟩ | ⟨h1, hclosed⟩
  · simp [hn] at hp
  · -- the 0 is written by a process that gives up
    cases hp.symm.trans h0
    exact { h with
      unforked := by simp [ParentPc.beforeFork]
      unborn := fun hu => ⟨(h.unborn hu).1, rfl⟩
      silent := fun _ => rfl
      pipe := Or.inl rfl
      success := by simp
      failure := fun _ _ => hgiven.parent_moves rfl _
      reported := by simpa [hpc, h0] using h.reported }
  · cases hp.symm.trans h1
    exact { h with
      unforked := by simp [ParentPc.beforeFork]
      unborn := fun hu => ⟨(h.unborn hu).1, rfl⟩
      silent := fun _ => rfl
      pipe := Or.inl rfl
      success := fun _ => hclosed
      failure := by simp
      reported := fun _ _ => Or.inl rfl }

lemma coherent_parent {ok : Bool} (h : Coherent calm past s) (hm : ParentMoves s ok s')
    (hr : calm → Reliable s (.proceed .parent ok)) : Coherent calm past s' := by
  have hstill {pc : ParentPc} (hpc : pc.beforeFork = false) (hs : s.GivenUp) :
      State.GivenUp { s with parent := pc } := hs.parent_moves hpc s.pipe
  cases hm with
  | stays => exact h
  | advances hb hb' _ =>
    refine h.alone hb ?_ h.piped
    rintro rfl
    cases hb'
  | opens hpc =>
    refine h.alone (by simp [hpc, ParentPc.beforeFork]) (by simp) fun hcalm => ?_
    simp [hr hcalm (Or.inl hpc)]
  | aborts hb => exact h.alone hb (by simp) h.piped
  | forks hpc =>
    have hunborn := h.unborn (Or.inl (h.unforked (by simp [hpc, ParentPc.beforeFork])))
    exact { h with
      unforked := by simp [ParentPc.beforeFork]
      unborn := fun _ => hunborn
      pipe := Or.inl hunborn.2
      success := by simp
      failure := by simp
      reported := by simp [hunborn.1] }
  | waits hpc =>
    refine { h with
      unforked := by simp [ParentPc.beforeFork]
      pipe := h.pipe.imp_right (Or.imp_left (And.imp_right (hstill rfl)))
      success := by simp
      failure := by simp
      reported := fun hcalm hd => Or.inr (Or.inr ⟨Or.inr rfl, ?_⟩) }
    simpa [hpc] using h.reported hcalm hd
  | cannotRead hpc hf =>
    have hno : ¬ calm := fun hcalm => by
      rcases hf with hf | hf
      · simp [h.piped hcalm] at hf
      · simp [hr hcalm (Or.inr hpc)] at hf
    exact { h with
      unforked := by simp [ParentPc.beforeFork]
      pipe := h.pipe.imp_right (Or.imp_left (And.imp_right (hstill rfl)))
      success := by simp
      failure := fun hcalm => absurd hcalm hno
      reported := fun hcalm => absurd hcalm hno }
  | reads hpc hp => exact coherent_reads h hpc hp
  | readsEnd hpc hp hw =>
    refine { h with
      unforked := by simp [ParentPc.beforeFork]
      pipe := Or.inl hp
      success := by simp
      failure := fun hcalm _ => h.givenUp_of_end hcalm hpc hp hw
      reported := fun hcalm hd => ?_ }
    simpa [hpc, hp] using h.reported hcalm hd

lemma Coherent.forking (h : Coherent calm past s) (hb : s.child.beforeFork = true) :
    s.parent.beforeFork = false ∧ ¬ s.GivenUp := by
  constructor
  · by_contra hc
    simp [h.unforked (by simpa using hc), ChildPc.beforeFork] at hb
  · intro hs
    simp [hs.child] at hb

lemma Coherent.child_moves (h : Coherent calm past s) (hb : s.child.beforeFork = true)
    (pc : ChildPc) : Coherent calm past { s with child := pc } := by
  obtain ⟨hforked, hnot⟩ := h.forking hb
  have hunborn := h.unborn (Or.inr hb)
  exact { h with
    unforked := by simp [hforked]
    unborn := fun _ => hunborn
    pipe := Or.inl hunborn.2
    failure := fun hcalm hp => absurd (h.failure hcalm hp) hnot }

lemma coherent_child (h : Coherent calm past s) (hm : ChildMoves s s') : Coherent calm past s' := by
  cases hm with
  | stays => exact h
  | advances hb _ _ => exact h.child_moves hb _
  | breaks hpc => exact h.child_moves (by simp [hpc, ChildPc.beforeFork]) _
  | forks hpc =>
    have hb : s.child.beforeFork = true := by simp [hpc, ChildPc.beforeFork]
    obtain ⟨hforked, hnot⟩ := h.forking hb
    have hunborn := h.unborn (Or.inr hb)
    exact { h with
      unforked := by simp [hforked]
      unborn := by simp [ChildPc.beforeFork]
      silent := fun _ => hunborn.2
      pipe := Or.inl hunborn.2
      failure := fun hcalm hp => absurd (h.failure hcalm hp) hnot
      reported := by simp }
  | @fails hpc pipe hp =>
    have hb : s.child.beforeFork = true := by simp [hpc, ChildPc.beforeFork]
    obtain ⟨hforked, -⟩ := h.forking hb
    have hunborn := h.unborn (Or.inr hb)
    have hgiven : State.GivenUp { s with child := .exited .failure, pipe := pipe } :=
      ⟨Or.inl hunborn.1, rfl, hforked⟩
    rw [hunborn.2] at hp
    exact { h with
      unforked := by simp [hforked]
      unborn := by simp [ChildPc.beforeFork]
      silent := by simp [hunborn.1, DaemonPc.beforeReport]
      pipe := hp.imp_right fun hp => Or.inl ⟨hp, hgiven⟩
      failure := fun _ _ => hgiven
      reported := by simp [hunborn.1] }
  | finishes hpc =>
    have hstill : s.GivenUp → State.GivenUp { s with child := .exited .success } := fun hs =>
      ⟨hs.daemon, rfl, hs.parent⟩
    exact { h with
      unforked := fun hc => by simp [h.unforked hc] at hpc
      unborn := by simp [ChildPc.beforeFork]
      pipe := h.pipe.imp_right (Or.imp_left (And.imp_right hstill))
      failure := fun hcalm hp => hstill (h.failure hcalm hp) }

lemma not_givenUp (hb : s.daemon.beforeReport = true) : ¬ s.GivenUp := fun hs => by
  rcases hs.daemon with hd | hd | hd <;> simp [hd, DaemonPc.beforeReport] at hb

lemma Coherent.daemon_moves (h : Coherent calm past s) (hb : s.daemon.beforeReport = true)
    {pc : DaemonPc} (hpc : pc ≠ .closePipe ∧ pc ≠ .serving) :
    Coherent calm (past ++ [pc]) { s with daemon := pc } :=
  { h with
    unborn := fun hu => absurd (h.unborn hu).1 (ne_unborn hb)
    silent := fun _ => h.silent hb
    pipe := Or.inl (h.silent hb)
    success := List.mem_append_left _ ∘ h.success
    failure := fun hcalm hp => absurd (h.failure hcalm hp) (not_givenUp hb)
    reported := fun _ hd => (not_or.mpr hpc hd).elim }

lemma coherent_report (h : Coherent calm past s) {ok : Bool}
    (hr : calm → Reliable s (.proceed .daemon ok)) (hpc : s.daemon = .report) {pipe : List UInt8}
    (hp : pipe = [1] ∧ s.hasReader = true ∨
      pipe = [] ∧ (s.pipeFailed = true ∨ ok = false)) :
    Coherent calm (past ++ [.closePipe]) { s with daemon := .closePipe, pipe := pipe } := by
  have hb : s.daemon.beforeReport = true := by simp [hpc, DaemonPc.beforeReport]
  have hwaiting (hreader : s.hasReader = true) : s.parent = .closeWrite ∨ s.parent = .reading := by
    have hchild := (h.forked (ne_unborn hb)).1
    simp only [State.hasReader, Bool.or_eq_true, decide_eq_true_eq] at hreader
    refine hreader.resolve_right fun hreader => ?_
    simp [hreader, ChildPc.beforeFork] at hchild
  refine { h with
    unborn := fun hu => absurd (h.unborn hu).1 (ne_unborn hb)
    silent := by simp [DaemonPc.beforeReport]
    pipe := ?_
    success := List.mem_append_left _ ∘ h.success
    failure := fun hcalm hp => absurd (h.failure hcalm hp) (not_givenUp hb)
    reported := fun hcalm _ => ?_ }
  · rcases hp with ⟨hpipe, -⟩ | ⟨hpipe, -⟩
    · exact Or.inr (Or.inr ⟨hpipe, by simp⟩)
    · exact Or.inl hpipe
  · rcases hp with ⟨hpipe, hreader⟩ | ⟨-, hf | hf⟩
    · exact Or.inr (Or.inr ⟨hwaiting hreader, hpipe⟩)
    · simp [h.piped hcalm] at hf
    · simp [hr hcalm hpc] at hf

lemma coherent_daemon {ok : Bool} (h : Coherent calm past s) (hm : DaemonMoves s ok s')
    (hr : calm → Reliable s (.proceed .daemon ok)) :
    Coherent calm (past ++ [s'.daemon]) s' := by
  cases hm with
  | stays => exact h.after _
  | advances hb hb' _ =>
    refine h.daemon_moves hb ⟨?_, ?_⟩
    · rintro rfl
      cases hb'
    · rintro rfl
      cases hb'
  | throws hb | breaks hb => exact h.daemon_moves hb (by simp)
  | @fails hpc pipe hp =>
    have hb : s.daemon.beforeReport = true := by simp [hpc, DaemonPc.beforeReport]
    have hforked := h.forked (ne_unborn hb)
    have hgiven : State.GivenUp { s with daemon := .exited, pipe := pipe } :=
      ⟨Or.inr (Or.inl rfl), hforked.1, hforked.2⟩
    rw [h.silent hb] at hp
    exact { h with
      unborn := fun hu => absurd (h.unborn hu).1 (ne_unborn hb)
      silent := by simp [DaemonPc.beforeReport]
      pipe := hp.imp_right fun hp => Or.inl ⟨hp, hgiven⟩
      success := List.mem_append_left _ ∘ h.success
      failure := fun _ _ => hgiven
      reported := by simp }
  | reports hpc hreader =>
    have hempty := h.silent (by simp [hpc, DaemonPc.beforeReport])
    exact coherent_report h hr hpc (Or.inl ⟨by simp [hempty], hreader⟩)
  | cannotReport hpc hf =>
    have hempty := h.silent (by simp [hpc, DaemonPc.beforeReport])
    exact coherent_report h hr hpc (Or.inr ⟨hempty, hf⟩)
  | serves hpc =>
    have hne : s.daemon ≠ .unborn := by simp [hpc]
    have hdead : ¬ s.GivenUp := fun hs => by
      rcases hs.daemon with hd | hd | hd <;> simp [hd] at hpc
    have hpast : DaemonPc.closePipe ∈ past → .closePipe ∈ past ++ [.serving] :=
      List.mem_append_left _
    exact { h with
      unborn := fun hu => absurd (h.unborn hu).1 hne
      silent := by simp [DaemonPc.beforeReport]
      pipe := h.pipe.imp_right (Or.imp (fun hp => absurd hp.2 hdead) (And.imp_right hpast))
      success := hpast ∘ h.success
      failure := fun hcalm hp => absurd (h.failure hcalm hp) hdead
      reported := fun hcalm _ => h.reported hcalm (Or.inl hpc) }

lemma coherent_kill (h : Coherent calm past s) (hm : Kills s s') : Coherent calm past s' := by
  cases hm with
  | stays => exact h
  | parent _ =>
    have hstill : s.GivenUp → State.GivenUp { s with parent := .killed } := fun hs =>
      ⟨hs.daemon, hs.child, rfl⟩
    exact { h with
      unforked := by simp [ParentPc.beforeFork]
      pipe := h.pipe.imp_right (Or.imp_left (And.imp_right hstill))
      success := by simp
      failure := by simp
      reported := fun _ _ => Or.inr (Or.inl rfl) }
  | child _ hb =>
    have hstill : s.GivenUp → State.GivenUp { s with child := .killed } := fun hs =>
      ⟨hs.daemon, rfl, hs.parent⟩
    exact { h with
      unforked := fun hc => absurd (h.unforked hc) hb
      unborn := by simp [ChildPc.beforeFork]
      pipe := h.pipe.imp_right (Or.imp_left (And.imp_right hstill))
      failure := fun hcalm hp => hstill (h.failure hcalm hp) }
  | daemon _ hb =>
    have hstill : s.GivenUp → State.GivenUp { s with daemon := .killed } := fun hs =>
      ⟨Or.inr (Or.inr rfl), hs.child, hs.parent⟩
    exact { h with
      unborn := fun hu => absurd (h.unborn hu).1 hb
      silent := by simp [DaemonPc.beforeReport]
      pipe := h.pipe.imp_right (Or.imp_left (And.imp_right hstill))
      failure := fun hcalm hp => hstill (h.failure hcalm hp)
      reported := by simp }

lemma coherent_step (h : Coherent calm past s) {e : Event} (hr : calm → Reliable s e) :
    Coherent calm (past ++ [(step s e).daemon]) (step s e) := by
  cases e with
  | proceed who ok =>
    cases who with
    | parent => exact (coherent_parent h (parentMoves s ok) hr).after _
    | child => exact (coherent_child h (childMoves s ok)).after _
    | daemon => exact coherent_daemon h (daemonMoves s ok) hr
  | kill who => exact (coherent_kill h (kills s who)).after _

/-- **The exit status is right.** In every interleaving of the three processes, with any calls
failing and any of them killed at any time: if the first process reports success, the daemon has
been through all of its set-up. If `pipe`, the `read` of the report and the `write` of the daemon's
do not fail either, then a report of failure means that no daemon serves then or ever; and a
daemon that serves has reported, so that the first process has exited with success or is going
to, unless it has been killed. -/
theorem exit_status_right (es : List Event) :
    let s := run step init es
    let past := outs step (fun s e => (step s e).daemon) init es
    (s.parent = .exited .success → .closePipe ∈ past) ∧
      (Meets step Reliable init es →
        (s.parent = .exited .failure → ∀ rest : List Event, (run step s rest).daemon ≠ .serving) ∧
        (s.daemon = .serving → s.parent = .exited .success ∨ s.parent = .killed ∨
          (s.parent = .closeWrite ∨ s.parent = .reading) ∧ s.pipe = [1])) := by
  intro s past
  have hall {calm : Prop} (h : Meets step (fun s e => calm → Reliable s e) init es) :
      Coherent calm past s :=
    invariant_outs (fun s e => (step s e).daemon) (I := Coherent calm)
      (fun _ _ _ h hr => coherent_step h hr) (coherent_init calm) h
  have hany : Coherent False past s := hall
    (meets_of_invariant (I := fun _ => True) (fun _ _ _ _ => trivial)
      (fun _ _ _ _ hfalse => hfalse.elim) trivial (meets_true _ _))
  refine ⟨hany.success, fun hr => ?_⟩
  have h : Coherent True past s := hall
    (meets_of_invariant (I := fun _ => True) (fun _ _ _ _ => trivial)
      (fun _ _ _ hr _ => hr) trivial hr)
  refine ⟨fun hfail rest => ?_, fun hd => h.reported trivial (Or.inr hd)⟩
  have hgiven : (run step s rest).GivenUp := invariant (I := State.GivenUp)
    (fun _ e h _ => givenUp_step h e) (h.failure trivial hfail) (meets_true _ _)
  rcases hgiven.daemon with hd | hd | hd <;> simp [hd]

/-- `pipe` fails: the first process reports failure, and the daemon serves. -/
example :
    let s := run step init ([true, true, true, false, true, true, true].map (.proceed .parent) ++
      List.replicate 4 (.proceed .child true) ++ List.replicate 7 (.proceed .daemon true))
    s.parent = .exited .failure ∧ s.daemon = .serving := by
  decide

/-! ### Everybody comes to an end -/

/-- The steps that are left to all of them. -/
def State.left (s : State) : ℕ := s.parent.left + s.child.left + s.daemon.left

/-- Nobody has anything left to do here. -/
structure State.Finished (s : State) : Prop where
  parent : s.parent.left = 0
  child : s.child = .unborn ∨ s.child.left = 0
  daemon : s.daemon = .unborn ∨ s.daemon = .serving ∨ s.daemon.left = 0

lemma left_of_beforeFork {pc : ParentPc} (h : pc.beforeFork = true) : pc.left ≠ 0 := by
  cases pc <;> simp_all [ParentPc.beforeFork, ParentPc.left]

lemma left_of_beforeReport {pc : DaemonPc} (h : pc.beforeReport = true) : pc.left ≠ 0 := by
  cases pc <;> simp_all [DaemonPc.beforeReport, DaemonPc.left]

lemma left_lt {s s' : State} (hp : s'.parent.left ≤ s.parent.left)
    (hc : s'.child.left ≤ s.child.left) (hd : s'.daemon.left ≤ s.daemon.left)
    (h : s'.parent.left < s.parent.left ∨ s'.child.left < s.child.left ∨
      s'.daemon.left < s.daemon.left) : s'.left < s.left := by
  simp only [State.left]
  omega

lemma left_parent {ok : Bool} (h : Coherent calm past s) (hm : ParentMoves s ok s') :
    s' = s ∨ s'.left < s.left := by
  have hless {pc : ParentPc} {pipeFailed : Bool} {pipe : List UInt8}
      (hl : pc.left < s.parent.left) :
      State.left { s with parent := pc, pipeFailed := pipeFailed, pipe := pipe } < s.left :=
    left_lt hl.le le_rfl le_rfl (Or.inl hl)
  cases hm with
  | stays => exact Or.inl rfl
  | advances _ _ hl => exact Or.inr (hless hl)
  | aborts hb => exact Or.inr (hless (Nat.pos_of_ne_zero (left_of_beforeFork hb)))
  | forks hpc =>
    have hu : s.child = .unborn := h.unforked (by simp [hpc, ParentPc.beforeFork])
    exact Or.inr (left_lt (by simp [hpc, ParentPc.left]) (by simp [hu, ChildPc.left]) le_rfl
      (Or.inl (by simp [hpc, ParentPc.left])))
  | opens hpc | waits hpc | cannotRead hpc _ | reads hpc _ | readsEnd hpc _ _ =>
    exact Or.inr (hless (by simp [hpc, ParentPc.left]))

lemma left_child (h : Coherent calm past s) (hm : ChildMoves s s') :
    s' = s ∨ s'.left < s.left := by
  have hless {pc : ChildPc} {pipe : List UInt8} (hl : pc.left < s.child.left) :
      State.left { s with child := pc, pipe := pipe } < s.left :=
    left_lt le_rfl hl.le le_rfl (Or.inr (Or.inl hl))
  cases hm with
  | stays => exact Or.inl rfl
  | advances _ _ hl => exact Or.inr (hless hl)
  | forks hpc =>
    have hu : s.daemon = .unborn := (h.unborn (Or.inr (by simp [hpc, ChildPc.beforeFork]))).1
    exact Or.inr (left_lt le_rfl (by simp [hpc, ChildPc.left]) (by simp [hu, DaemonPc.left])
      (Or.inr (Or.inl (by simp [hpc, ChildPc.left]))))
  | breaks hpc | fails hpc _ | finishes hpc => exact Or.inr (hless (by simp [hpc, ChildPc.left]))

lemma left_daemon {ok : Bool} (hm : DaemonMoves s ok s') : s' = s ∨ s'.left < s.left := by
  have hless {pc : DaemonPc} {pipe : List UInt8} (hl : pc.left < s.daemon.left) :
      State.left { s with daemon := pc, pipe := pipe } < s.left :=
    left_lt le_rfl le_rfl hl.le (Or.inr (Or.inr hl))
  cases hm with
  | stays => exact Or.inl rfl
  | advances _ _ hl => exact Or.inr (hless hl)
  | throws hb | breaks hb => exact Or.inr (hless (Nat.pos_of_ne_zero (left_of_beforeReport hb)))
  | fails hpc _ | reports hpc _ | cannotReport hpc _ | serves hpc =>
    exact Or.inr (hless (by simp [hpc, DaemonPc.left]))

/-- **Every step counts**: it changes nothing, or there is less to do. -/
lemma left_step (h : Coherent calm past s) (e : Event) :
    step s e = s ∨ (step s e).left < s.left := by
  cases e with
  | proceed who ok =>
    cases who with
    | parent => exact left_parent h (parentMoves s ok)
    | child => exact left_child h (childMoves s ok)
    | daemon => exact left_daemon (daemonMoves s ok)
  | kill who =>
    have hm : Kills s (step s (.kill who)) := kills s who
    generalize step s (.kill who) = s' at hm ⊢
    cases hm with
    | stays => exact Or.inl rfl
    | parent h =>
      exact Or.inr (left_lt (Nat.zero_le _) le_rfl le_rfl (Or.inl (Nat.pos_of_ne_zero h)))
    | child h _ =>
      exact Or.inr (left_lt le_rfl (Nat.zero_le _) le_rfl (Or.inr (Or.inl (Nat.pos_of_ne_zero h))))
    | daemon h _ =>
      exact Or.inr (left_lt le_rfl le_rfl (Nat.zero_le _) (Or.inr (Or.inr (Nat.pos_of_ne_zero h))))

lemma stepChild_ne {s : State} (hb : s.child ≠ .unborn) (h : s.child.left ≠ 0) (ok : Bool) :
    (stepChild s ok).child ≠ s.child := by
  unfold stepChild
  split <;> rename_i hpc <;> simp_all [ChildPc.left]
  all_goals split_ifs <;> simp

lemma stepDaemon_ne {s : State} (hb : s.daemon ≠ .unborn) (hs : s.daemon ≠ .serving)
    (h : s.daemon.left ≠ 0) (ok : Bool) : (stepDaemon s ok).daemon ≠ s.daemon := by
  unfold stepDaemon
  split <;> rename_i hpc <;> simp_all [DaemonPc.left]
  all_goals split_ifs <;> simp

lemma stepParent_ne {s : State} (h : s.parent.left ≠ 0)
    (hw : s.child.writes = false ∧ s.daemon.writes = false) (ok : Bool) :
    (stepParent s ok).parent ≠ s.parent := by
  unfold stepParent
  split <;> rename_i hpc <;> simp_all [ParentPc.left]
  · split_ifs <;> simp
  · split_ifs <;> simp
  · split_ifs <;> simp
  · cases s.pipe with
    | nil => simp [State.hasWriter, hpc, hw]
    | cons byte rest => split_ifs <;> simp

/-- **Nobody waits for ever.** If no process gets any further, all have come to their end. -/
lemma finished_of_stuck {s : State} (h : ∀ who, ∃ ok, step s (.proceed who ok) = s) :
    s.Finished := by
  have hchild : s.child = .unborn ∨ s.child.left = 0 := by
    by_contra hc
    rw [not_or] at hc
    obtain ⟨ok, hok⟩ := h .child
    exact stepChild_ne hc.1 hc.2 ok (congrArg State.child hok)
  have hdaemon : s.daemon = .unborn ∨ s.daemon = .serving ∨ s.daemon.left = 0 := by
    by_contra hd
    simp only [not_or] at hd
    obtain ⟨ok, hok⟩ := h .daemon
    exact stepDaemon_ne hd.1 hd.2.1 hd.2.2 ok (congrArg State.daemon hok)
  refine ⟨?_, hchild, hdaemon⟩
  by_contra hp
  obtain ⟨ok, hok⟩ := h .parent
  refine stepParent_ne hp ⟨?_, ?_⟩ ok (congrArg State.parent hok)
  · cases hs : s.child <;> simp_all [ChildPc.left, ChildPc.writes]
  · cases hs : s.daemon <;> simp_all [DaemonPc.left, DaemonPc.writes]

lemma finished_step (h : s.Finished) (e : Event) : (step s e).Finished := by
  obtain ⟨hp, hc, hd⟩ := h
  have hm := moves s e
  generalize step s e = s' at hm ⊢
  cases e with
  | proceed who ok =>
    cases who with
    | parent =>
      cases hm with
      | stays => exact ⟨hp, hc, hd⟩
      | advances hb _ _ | aborts hb => exact absurd hp (left_of_beforeFork hb)
      | opens hpc | forks hpc | waits hpc | cannotRead hpc _ | reads hpc _ | readsEnd hpc _ _ =>
        simp [hpc, ParentPc.left] at hp
    | child =>
      cases hm with
      | stays => exact ⟨hp, hc, hd⟩
      | advances hb _ _ => cases hs : s.child <;> simp_all [ChildPc.beforeFork, ChildPc.left]
      | forks hpc | breaks hpc | fails hpc _ | finishes hpc => simp [hpc, ChildPc.left] at hc
    | daemon =>
      cases hm with
      | stays => exact ⟨hp, hc, hd⟩
      | advances hb _ _ | throws hb | breaks hb =>
        cases hs : s.daemon <;> simp_all [DaemonPc.beforeReport, DaemonPc.left]
      | fails hpc _ | reports hpc _ | cannotReport hpc _ | serves hpc =>
        simp [hpc, DaemonPc.left] at hd
  | kill who =>
    cases hm with
    | stays => exact ⟨hp, hc, hd⟩
    | parent h => exact absurd hp h
    | child h hb => exact absurd (hc.resolve_left hb) h
    | daemon h hb => exact ⟨hp, hc, Or.inr (Or.inr rfl)⟩

/-- Every process gets a turn. -/
def Fair (round : List Event) : Prop := ∀ who, ∃ ok, Event.proceed who ok ∈ round

/-- A run in which there does not get less to do changes nothing at all. -/
lemma left_run (h : Coherent False past s) (es : List Event) :
    (run step s es = s ∧ ∀ e ∈ es, step s e = s) ∨ (run step s es).left < s.left := by
  -- a step that changes nothing leaves the rest of the round where it began
  induction es generalizing past s with
  | nil => exact Or.inl ⟨rfl, by simp⟩
  | cons e es ih =>
    rw [run_cons]
    rcases left_step h e with hs | hlt
    · rw [hs]
      refine (ih h).imp_left fun hrest => ⟨hrest.1, ?_⟩
      rw [List.forall_mem_cons]
      exact ⟨hs, hrest.2⟩
    · rcases ih (coherent_step (e := e) h False.elim) with ⟨hrun, -⟩ | hrun
      · rw [hrun]
        exact Or.inr hlt
      · exact Or.inr (hrun.trans hlt)

lemma coherent_run (h : Coherent False past s) (es : List Event) :
    ∃ past, Coherent False past (run step s es) := by
  induction es generalizing past s with
  | nil => exact ⟨past, h⟩
  | cons e es ih => exact ih (coherent_step (e := e) h False.elim)

lemma finished_rounds (h : Coherent False past s)
    {rounds : List (List Event)} (hfair : ∀ round ∈ rounds, Fair round)
    (hlen : s.Finished ∨ s.left ≤ rounds.length) : (run step s rounds.flatten).Finished := by
  have stable {s : State} (hs : s.Finished) (es : List Event) : (run step s es).Finished :=
    invariant (I := State.Finished) (fun _ e h _ => finished_step h e) hs (meets_true _ _)
  induction rounds generalizing past s with
  | nil =>
    show s.Finished
    refine hlen.elim id fun hleft => ?_
    simp only [State.left, List.length_nil] at hleft
    exact ⟨by omega, Or.inr (by omega), Or.inr (Or.inr (by omega))⟩
  | cons round rounds ih =>
    obtain ⟨hround, hrest⟩ := List.forall_mem_cons.mp hfair
    rw [List.flatten_cons, run_append]
    obtain ⟨_, hnext⟩ := coherent_run h round
    refine ih hnext hrest ?_
    rcases hlen with hfin | hleft
    · exact Or.inl (stable hfin round)
    · rcases left_run h round with ⟨hsame, hstuck⟩ | hlt
      · refine Or.inl ?_
        rw [hsame]
        refine finished_of_stuck fun who => ?_
        obtain ⟨ok, hmem⟩ := hround who
        exact ⟨ok, hstuck _ hmem⟩
      · rw [List.length_cons] at hleft
        exact Or.inr (by omega)

/-- **The end of `daemonize`.** Whatever calls fail and whoever is killed: after twenty-three
rounds, in each of which every process has a turn, in any order and among any other events, the
first process has exited or is gone, the child is gone, and the daemon serves or is gone. Nobody
waits at the pipe for ever. -/
theorem daemonize_ends (rounds : List (List Event)) (hfair : ∀ round ∈ rounds, Fair round)
    (hlen : 23 ≤ rounds.length) : (run step init rounds.flatten).Finished :=
  finished_rounds (coherent_init False) hfair (Or.inr hlen)

def smooth : List Event :=
  [.proceed .parent true, .proceed .child true, .proceed .daemon true]

theorem daemonize_ends_smooth : (run step init (List.replicate 23 smooth).flatten).Finished := by
  refine daemonize_ends _ (fun round hround => ?_) (by simp)
  rw [List.eq_of_mem_replicate hround]
  intro who
  cases who <;> exact ⟨true, by simp [smooth]⟩

end TinyDhcpd.Daemonize
