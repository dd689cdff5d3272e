import TinyDhcpd.Inet
import TinyDhcpd.Run

/-!
The log, as it arrives at `syslog`.

A sink writes a formatted message into a stream. `SyslogBuffer` is behind one of them: it collects
characters until the stream is flushed, and the priority of what it collects is set by the way,
before the message is put in.
-/

namespace TinyDhcpd.Log

open Inet Run

inductive Level
  | TRACE
  | DEBUG
  | INFO
  | WARN
  | ERROR
  | FATAL
  deriving DecidableEq

def Level.toNat : Level → ℕ
  | TRACE => 0
  | DEBUG => 1
  | INFO => 2
  | WARN => 3
  | ERROR => 4
  | FATAL => 5

def SYSLOG_ALERT : ℕ := 1
def SYSLOG_CRIT : ℕ := 2
def SYSLOG_WARN : ℕ := 4
def SYSLOG_INFO : ℕ := 6
def SYSLOG_DEBUG : ℕ := 7

structure Message where
  level : Level
  text : List Char

/-- `Logger::operator()`, and `LOG_TRACE`, which does nothing unless it is compiled in. -/
def logs (enableTrace : Bool) (currentGlobalLogLevel : Level) (m : Message) : Bool :=
  (m.level ≠ .TRACE || enableTrace) && !(m.level.toNat < currentGlobalLogLevel.toNat)

/-! ### `syslog` -/

structure Record where
  priority : ℕ
  text : List Char
  deriving DecidableEq

structure SyslogBuffer where
  buffer : List Char
  nextPrio : ℕ
  deriving DecidableEq

namespace SyslogBuffer

def init : SyslogBuffer := ⟨[], SYSLOG_DEBUG⟩

/-- `sync`, and what it hands to `syslog`. -/
def sync (b : SyslogBuffer) : SyslogBuffer × List Record :=
  if 0 < b.buffer.length then (⟨[], SYSLOG_DEBUG⟩, [⟨b.nextPrio, cStr b.buffer⟩]) else (b, [])

/-- `overflow`; without a character at the end of the file. -/
def overflow (b : SyslogBuffer) : Option Char → SyslogBuffer × List Record
  | some c => ({ b with buffer := b.buffer ++ [c] }, [])
  | none => b.sync

end SyslogBuffer

/-- What is done to a stream: `operator<<` of a priority, a character, `flush`. -/
inductive Op
  | prio (priority : ℕ)
  | put (c : Char)
  | flush

/-- There is no put area, so that every character goes through `overflow`. -/
def exec (b : SyslogBuffer) : Op → SyslogBuffer × List Record
  | .prio priority => ({ b with nextPrio := priority }, [])
  | .put c => b.overflow (some c)
  | .flush => b.sync

def step (b : SyslogBuffer) (op : Op) : SyslogBuffer := (exec b op).1

def records (b : SyslogBuffer) (op : Op) : List Record := (exec b op).2

/-- What `SyslogLogSink::format_message` does to its stream. -/
def formatMessage : Level → List Op
  | .TRACE => [.prio SYSLOG_DEBUG]
  | .DEBUG => []
  | .WARN => [.prio SYSLOG_WARN]
  | .ERROR => [.prio SYSLOG_ALERT]
  | .FATAL => [.prio SYSLOG_CRIT]
  | .INFO => [.prio SYSLOG_INFO]

/-- `LogSink::write`; the end of it is `std::endl`. -/
def write (m : Message) : List Op := formatMessage m.level ++ m.text.map .put ++ [.put '\n', .flush]

/-- What the logger makes of a message. -/
def log (enableTrace : Bool) (currentGlobalLogLevel : Level) (m : Message) : List Op :=
  if logs enableTrace currentGlobalLogLevel m then write m else []

/-- The priority a message of the level has in the end. -/
def syslogPriority : Level → ℕ
  | .TRACE => SYSLOG_DEBUG
  | .DEBUG => SYSLOG_DEBUG
  | .INFO => SYSLOG_INFO
  | .WARN => SYSLOG_WARN
  | .ERROR => SYSLOG_ALERT
  | .FATAL => SYSLOG_CRIT

lemma run_put (b : SyslogBuffer) (text : List Char) :
    run step b (text.map .put) = ⟨b.buffer ++ text, b.nextPrio⟩ ∧
      (outs step records b (text.map .put)).flatten = [] := by
  induction text generalizing b with
  | nil => simp [outs]
  | cons c text ih =>
    obtain ⟨hrun, houts⟩ := ih ⟨b.buffer ++ [c], b.nextPrio⟩
    rw [List.append_assoc] at hrun
    exact ⟨hrun, houts⟩

/-- The priority is set, or is the one that `sync` has left. -/
lemma run_formatMessage (level : Level) :
    run step .init (formatMessage level) = ⟨[], syslogPriority level⟩ ∧
      (outs step records .init (formatMessage level)).flatten = [] := by
  cases level <;> exact ⟨rfl, rfl⟩

lemma run_write (m : Message) :
    run step .init (write m) = .init ∧ (outs step records .init (write m)).flatten =
      [⟨syslogPriority m.level, cStr (m.text ++ ['\n'])⟩] := by
  obtain ⟨hf, hf'⟩ := run_formatMessage m.level
  obtain ⟨hp, hp'⟩ := run_put ⟨[], syslogPriority m.level⟩ m.text
  have hsync : ∀ text, SyslogBuffer.sync ⟨text ++ ['\n'], syslogPriority m.level⟩ =
      (.init, [⟨syslogPriority m.level, cStr (text ++ ['\n'])⟩]) := by
    intro text
    simp [SyslogBuffer.sync, SyslogBuffer.init]
  rw [List.nil_append] at hp
  simp only [write, run_append, outs_append, List.flatten_append, hf, hf', hp, hp']
  simp [outs, step, records, exec, SyslogBuffer.overflow, hsync]

/-- **One record for each message.** Whatever is logged, with whatever texts, `syslog` is called
once for each message that is not below the level of the logger, in their order, with the text of
the message and the priority of its level. -/
theorem syslog_records (enableTrace : Bool) (currentGlobalLogLevel : Level) (ms : List Message) :
    let ops := ms.flatMap (log enableTrace currentGlobalLogLevel)
    (outs step records .init ops).flatten =
      (ms.filter (logs enableTrace currentGlobalLogLevel)).map fun m =>
        ⟨syslogPriority m.level, cStr (m.text ++ ['\n'])⟩ := by
  dsimp only
  induction ms with
  | nil => rfl
  | cons m ms ih =>
    rw [List.flatMap_cons, List.filter_cons]
    cases hl : logs enableTrace currentGlobalLogLevel m with
    | true =>
      obtain ⟨hrun, houts⟩ := run_write m
      simp only [log, hl, if_true, outs_append, List.flatten_append, hrun, houts]
      exact congrArg _ ih
    | false =>
      simp only [log, hl, Bool.false_eq_true, if_false, List.nil_append]
      exact ih

end TinyDhcpd.Log
