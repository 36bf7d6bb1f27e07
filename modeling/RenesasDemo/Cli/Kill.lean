import RenesasDemo.Cli.Help
import RenesasDemo.Framework.Numerals

namespace RenesasDemo.Cli

open Framework

def sigHup : Nat := 1
def sigInt : Nat := 2
def sigQuit : Nat := 3
def sigKill : Nat := 9
def sigTerm : Nat := 15
def sigStop : Nat := 23
def sigStp : Nat := 24
def sigCont : Nat := 25

def pcSignaMap : List (Nat × List UInt8) :=
  [(sigHup, ascii "SIGHUP"), (sigInt, ascii "SIGINT"), (sigQuit, ascii "SIGQUIT"),
    (sigKill, ascii "SIGKILL"), (sigTerm, ascii "SIGTERM"), (sigStop, ascii "SIGSTOP"),
    (sigStp, ascii "SIGSTP"), (sigCont, ascii "SIGCONT")]

/-- What the kernel knows of a task; its handle is not NULL. -/
structure Task where
  xTaskNumber : Nat
  pcTaskName : CString
  xHandle : Nat
  deriving DecidableEq

/-- Calls of the kernel, where no handle is NULL and stands for the calling task. -/
inductive TaskOp where
  | suspend (xTask : Option Nat)
  | delete (xTask : Option Nat)
  | resume (xTask : Option Nat)
  deriving DecidableEq

def vSignalTask (xTask : Option Nat) (xSignal : Nat) : List TaskOp :=
  if xSignal = sigQuit ∨ xSignal = sigTerm then [.suspend xTask, .delete xTask]
  else if xSignal = sigStop ∨ xSignal = sigStp then [.suspend xTask]
  else if xSignal = sigCont then [.resume xTask]
  else []

/-- What `vTaskDelete` leaves of the task table. -/
def TaskOp.tasksAfter (tasks : List Task) : TaskOp → List Task
  | .delete (some xTask) => tasks.filter fun t => t.xHandle ≠ xTask
  | _ => tasks

/-- The calling task does not return from deleting itself. A task that suspends itself goes on
when another one resumes it. -/
def TaskOp.ends (caller : Nat) : TaskOp → Bool
  | .delete xTask => xTask.elim true fun h => h = caller
  | _ => false

def isOption (arg : CString) : Bool := arg.bytes.head? = some 0x2D

/-- What an option makes of `xTargetSignal`. -/
def optionSignal (xTargetSignal : Nat) (arg : CString) : Nat :=
  let pcArg := arg.bytes.drop 1
  let ulSignal := (strtoul pcArg).toNat
  if ulSignal ≠ 0 then ulSignal
  else ((pcSignaMap.find? fun p => p.2 = pcArg).map Prod.fst).getD xTargetSignal

/-- What the two commands have of their own: `set` for an argument that is no option, and whether
they signal at the end of a loop body, and which handle. `i` is the index of the argument. -/
structure Target (τ : Type) where
  init : τ
  set : List Task → CString → τ
  signalled : Nat → List Task → τ → Option (Option Nat)

structure KillState (τ : Type) where
  tasks : List Task
  xTargetSignal : Nat
  target : τ
  running : Bool

/-- A call of `vSignalTask`. -/
structure SignalCall where
  xTask : Option Nat
  xSignal : Nat
  deriving DecidableEq

def SignalCall.ops (c : SignalCall) : List TaskOp := vSignalTask c.xTask c.xSignal

namespace KillState

variable {τ : Type} (caller : Nat)

def after (s : KillState τ) (c : SignalCall) : KillState τ :=
  { s with
    tasks := c.ops.foldl TaskOp.tasksAfter s.tasks
    running := s.running && !c.ops.any (TaskOp.ends caller) }

/-- The loop body up to the call of `vSignalTask`. -/
def read (k : Target τ) (s : KillState τ) (arg : CString) : KillState τ :=
  if isOption arg then { s with xTargetSignal := optionSignal s.xTargetSignal arg }
  else { s with target := k.set s.tasks arg }

/-- The loop over the arguments from index `i` on: the calls of `vSignalTask` for each of them. -/
def loop (k : Target τ) : Nat → KillState τ → List CString → List (List SignalCall)
  | _, _, [] => []
  | i, s, arg :: args =>
    if s.running then
      let t := s.read k arg
      match k.signalled i t.tasks t.target with
      | some xTask =>
        [⟨xTask, t.xTargetSignal⟩] :: loop k (i + 1) (t.after caller ⟨xTask, t.xTargetSignal⟩) args
      | none => [] :: loop k (i + 1) t args
    else [] :: loop k (i + 1) s args

end KillState

def KillState.start {τ : Type} (k : Target τ) (tasks : List Task) : KillState τ where
  tasks := tasks
  xTargetSignal := sigTerm
  target := k.init
  running := true

def digits? (w : List UInt8) : Option Nat :=
  if w ≠ [] ∧ w.all isDigit then some (decimalValue w) else none

def numeral? : List UInt8 → Option Nat
  | 0x2B :: w => digits? w
  | w => digits? w

/-- The signal that is in force behind an option: its number, or that of its name. Other options
change nothing. -/
def requestedSignal (signal : Nat) (arg : CString) : Nat :=
  let word := arg.bytes.drop 1
  ((numeral? word).orElse fun _ =>
    (pcSignaMap.find? fun p => p.2 = word).map Prod.fst).getD signal

def deletes (signal : Nat) : Bool := signal = sigQuit || signal = sigTerm

def tasksLeft (tasks : List Task) (h signal : Nat) : List Task :=
  if deletes signal then tasks.filter fun t => t.xHandle ≠ h else tasks

/-- What the arguments in front of one amount to: the tasks that are left by what they ask for, the
signal that they ask for, the signal that is taken from them, and what is read of the last one that
is no option. -/
structure Front (τ : Type) where
  index : Nat
  tasks : List Task
  asked : Nat
  taken : Nat
  last : τ
  /-- They ask to delete the calling task. -/
  deleted : Bool

/-- The task that an argument asks to signal. -/
def asks (named : List Task → CString → Option Nat) (tasks : List Task) (arg : CString) :
    Option Nat :=
  if isOption arg then none else named tasks arg

/-- The signal that `strtoul` makes of an option, or the table of names where it makes 0. -/
def takenSignal (signal : Nat) (arg : CString) : Nat :=
  let word := arg.bytes.drop 1
  match (strtoul word).toNat with
  | 0 => ((pcSignaMap.find? fun p => p.2 = word).map Prod.fst).getD signal
  | n + 1 => n + 1

/-- The next argument, where `named` is the task that it names, and `readAs` what is read of it. -/
def Front.next {τ : Type} (named : List Task → CString → Option Nat)
    (readAs : List Task → CString → τ) (caller : Nat) (f : Front τ) (arg : CString) : Front τ where
  index := f.index + 1
  tasks := ((asks named f.tasks arg).map fun h => tasksLeft f.tasks h f.asked).getD f.tasks
  asked := if isOption arg then requestedSignal f.asked arg else f.asked
  taken := if isOption arg then takenSignal f.taken arg else f.taken
  last := if isOption arg then f.last else readAs f.tasks arg
  deleted := f.deleted || (deletes f.asked && asks named f.tasks arg = some caller)

/-- In front of the first argument, behind the command's name. -/
def Front.start {τ : Type} (last : τ) (tasks : List Task) : Front τ :=
  ⟨1, tasks, sigTerm, sigTerm, last, false⟩

section argument

variable {τ : Type} (k : Target τ) (named : List Task → CString → Option Nat) (caller : Nat)

end argument

section right

variable {r : Option (Nat × Nat)} {signal : Nat}

end right

section runs

variable {τ : Type} {k : Target τ} {named : List Task → CString → Option Nat} {caller : Nat}

/-- The loop's variables, as long as it has done what is asked for. -/
def Front.state (f : Front τ) : KillState τ := ⟨f.tasks, f.taken, f.last, !f.deleted⟩

section front

variable (k named caller) {f : Front τ} {arg : CString} {h : Nat}

end front

end runs

end RenesasDemo.Cli
