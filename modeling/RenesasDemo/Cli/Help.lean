import RenesasDemo.Cli.Tokenizer
import RenesasDemo.Framework.Runs

namespace RenesasDemo.Cli

open Framework

def xHelpCommand : Command where
  pcCommand := ⟨ascii "help", by decide⟩
  pcHelpString := .ofBytes (ascii "help:\r\n" ++
    ascii "    List available commands and their arguments.\r\n" ++
    ascii "    Usage:\r\n\n" ++
    ascii "    help\r\n" ++
    ascii "        Print help for all recognized commands\r\n\n" ++
    ascii "    help <command>\r\n" ++
    ascii "        Print help test for a specific command\r\n\n")

def xCommandDefKill : Command where
  pcCommand := ⟨ascii "kill", by decide⟩
  pcHelpString := .ofBytes (ascii "kill\r\n" ++
    ascii "    kill [ -SIGNAME ] <Task ID>\r\n" ++
    ascii "        Signal a task with the named signal and the specified task id.\r\n\n" ++
    ascii "    kill [ -n ] <Task ID>\r\n" ++
    ascii "        Signal a task with the given signal number and the specified task id.\r\n\n")

def xCommandDefKillAll : Command where
  pcCommand := ⟨ascii "killall", by decide⟩
  pcHelpString := .ofBytes (ascii "killall\r\n" ++
    ascii "    killall [ -SIGNAME ] <Task Name>\r\n" ++
    ascii "    killall [ -n ] <Task Name>\r\n" ++
    ascii "        Signal a task with a given name with the signal number or signal name given.\r\n\n")

/-- The list of registered commands, and the static `pxCommand` of `prvHelpCommand`: a position in
the list. -/
structure CommandList where
  xRegisteredCommands : List Command
  pxCommand : Option Nat

def CommandList.initial : CommandList := ⟨[xHelpCommand], none⟩

/-- `FreeRTOS_CLIRegisterCommand` appends; without memory it stays in its `configASSERT`. -/
def freeRtosCliRegisterCommand (malloc : Bool) (l : CommandList) (pxCommandToRegister : Command) :
    Option CommandList :=
  if malloc then
    some { l with xRegisteredCommands := l.xRegisteredCommands ++ [pxCommandToRegister] }
  else none

/-- The comparison by which `prvHelpCommand` looks for its argument. -/
def helpMatches (arg : CString) (c : Command) : Bool :=
  strncmp c.pcCommand.bytes arg.bytes c.pcCommand.length = 0

/-- `prvHelpCommand` for `ppcArgv[ 1 ]`, none when there is no such argument: what it prints, and
the list with the new `pxCommand`. -/
def prvHelpCommand (l : CommandList) (arg : Option CString) : List Output × CommandList :=
  let pxCommand := arg.elim l.pxCommand fun name =>
    l.xRegisteredCommands.findIdx? (helpMatches name)
  match pxCommand.bind fun i => l.xRegisteredCommands[i]? with
  | some c => ([.print c.pcHelpString], { l with pxCommand := pxCommand })
  | none =>
    (l.xRegisteredCommands.map fun c => .print c.pcHelpString, { l with pxCommand := none })

inductive CliEvent where
  | register (pxCommandToRegister : Command)
  | help (arg : Option CString)

namespace CommandList

/-- A registration for which there is memory, or a help command. -/
def next (l : CommandList) : CliEvent → CommandList
  | .register c => (freeRtosCliRegisterCommand true l c).getD l
  | .help arg => (prvHelpCommand l arg).2

def allHelp (l : CommandList) : List Output :=
  l.xRegisteredCommands.map fun c => .print c.pcHelpString

/-- What a help command should print: the text of the command that a line with only this word runs,
or all texts. -/
def expectedHelp (l : CommandList) (arg : Option CString) : List Output :=
  match arg.bind (prvFindMatchingCommand l.xRegisteredCommands) with
  | some c => [.print c.pcHelpString]
  | none => l.allHelp

def PrintsExpected (l : CommandList) : CliEvent → Prop
  | .register _ => True
  | .help arg => (prvHelpCommand l arg).1 = l.expectedHelp arg

instance (l : CommandList) : (e : CliEvent) → Decidable (l.PrintsExpected e)
  | .register _ => inferInstanceAs (Decidable True)
  | .help _ => inferInstanceAs (Decidable (_ = _))

/-- Without an argument: no earlier help command has left a command behind. With one: the first
command whose name starts the argument is the one that it names, if there is any. (A wrong text can
be the same text, and the only one can be all of them.) -/
def HelpAgrees (l : CommandList) : CliEvent → Prop
  | .register _ => True
  | .help none => l.pxCommand = none ∨ l.xRegisteredCommands.length = 1
  | .help (some name) =>
    ∀ c ∈ l.xRegisteredCommands.find? (helpMatches name), commandMatches name c = true ∨
      match prvFindMatchingCommand l.xRegisteredCommands name with
      | some d => c.pcHelpString = d.pcHelpString
      | none => l.xRegisteredCommands.length = 1

def InList (l : CommandList) : Prop := ∀ i ∈ l.pxCommand, i < l.xRegisteredCommands.length

theorem inList_initial : InList .initial := by
  intro i hi
  cases hi

theorem inList_next {l : CommandList} (h : l.InList) (e : CliEvent) : (l.next e).InList := by
  cases e with
  | register c =>
    intro i hi
    have hlt := h i hi
    simp only [next, freeRtosCliRegisterCommand, if_true, Option.getD_some, List.length_append,
      List.length_singleton]
    omega
  | help arg =>
    rw [next, prvHelpCommand]
    split
    · next c hc =>
      intro i hi
      obtain ⟨j, hj, hget⟩ := Option.bind_eq_some_iff.mp hc
      have hij : some j = some i := hj.symm.trans hi
      cases hij
      exact (List.getElem?_eq_some_iff.mp hget).1
    · intro i hi
      cases hi

end CommandList

theorem helpMatches_of_commandMatches {name : CString} {c : Command}
    (h : commandMatches name c = true) : helpMatches name c = true := by
  simp only [commandMatches, Bool.and_eq_true, decide_eq_true_eq] at h
  have hcmp := h.1
  rw [strncmp_eq_zero name.noNul c.pcCommand.noNul] at hcmp
  rw [helpMatches, decide_eq_true_iff, strncmp_eq_zero c.pcCommand.noNul name.noNul, hcmp]

/-- The first command whose name starts the argument is found by dispatch, if it matches. -/
theorem find?_commandMatches_of_first {cmds : List Command} {name : CString} {c : Command}
    (h : cmds.find? (helpMatches name) = some c) (hm : commandMatches name c = true) :
    prvFindMatchingCommand cmds name = some c := by
  rw [List.find?_eq_some_iff_append] at h
  obtain ⟨-, pre, post, rfl, hpre⟩ := h
  rw [prvFindMatchingCommand, List.find?_eq_some_iff_append]
  refine ⟨hm, pre, post, rfl, fun a ha => ?_⟩
  have hno := hpre a ha
  simp only [Bool.not_eq_true'] at hno ⊢
  exact Bool.eq_false_iff.mpr fun ht => by
    rw [helpMatches_of_commandMatches ht] at hno
    cases hno

namespace CommandList

variable {l : CommandList}

theorem prvHelpCommand_none (l : CommandList) :
    (prvHelpCommand l none).1 =
      match l.pxCommand.bind fun i => l.xRegisteredCommands[i]? with
      | some c => [.print c.pcHelpString]
      | none => l.allHelp := by
  rw [prvHelpCommand, Option.elim_none]
  split <;> simp_all [allHelp]

theorem prvHelpCommand_some (l : CommandList) (name : CString) :
    (prvHelpCommand l (some name)).1 =
      match l.xRegisteredCommands.find? (helpMatches name) with
      | some c => [.print c.pcHelpString]
      | none => l.allHelp := by
  rw [prvHelpCommand, Option.elim_some, List.find?_eq_bind_findIdx?_getElem?]
  split <;> simp_all [allHelp]

theorem singleton_eq_allHelp_iff {c : Command} (hc : c ∈ l.xRegisteredCommands) :
    [.print c.pcHelpString] = l.allHelp ↔ l.xRegisteredCommands.length = 1 := by
  constructor
  · intro h
    have hlen := congrArg List.length h
    simpa [allHelp] using hlen.symm
  · intro h
    obtain ⟨d, hd⟩ := List.length_eq_one_iff.mp h
    rw [hd, List.mem_singleton] at hc
    rw [allHelp, hd, hc]
    rfl

/-- A help command prints what it should exactly when help and dispatch agree. -/
theorem printsExpected_iff (h : l.InList) (e : CliEvent) :
    l.PrintsExpected e ↔ l.HelpAgrees e := by
  cases e with
  | register c => exact Iff.rfl
  | help arg =>
    cases arg with
    | none =>
      rw [PrintsExpected, prvHelpCommand_none]
      change _ = l.allHelp ↔ l.pxCommand = none ∨ _
      cases hi : l.pxCommand with
      | none => simp
      | some i =>
        have hlt := h i hi
        have hget := List.getElem?_eq_getElem hlt
        simp only [Option.bind_some, hget, reduceCtorEq, false_or]
        exact singleton_eq_allHelp_iff (List.getElem_mem hlt)
    | some name =>
      rw [PrintsExpected, prvHelpCommand_some, expectedHelp, Option.bind_some]
      cases hf : l.xRegisteredCommands.find? (helpMatches name) with
      | none =>
        have hnone : prvFindMatchingCommand l.xRegisteredCommands name = none := by
          rw [prvFindMatchingCommand, List.find?_eq_none]
          intro c hc hm
          exact List.find?_eq_none.mp hf c hc (helpMatches_of_commandMatches hm)
        simp [hnone, HelpAgrees, hf]
      | some c =>
        have hagrees : l.HelpAgrees (.help (some name)) ↔ (commandMatches name c = true ∨
            match prvFindMatchingCommand l.xRegisteredCommands name with
            | some d => c.pcHelpString = d.pcHelpString
            | none => l.xRegisteredCommands.length = 1) := by
          simp [HelpAgrees, hf]
        rw [hagrees]
        by_cases hm : commandMatches name c = true
        · have hd := find?_commandMatches_of_first hf hm
          simp [hm, hd]
        · rw [or_iff_right hm]
          cases hd : prvFindMatchingCommand l.xRegisteredCommands name with
          | none => exact singleton_eq_allHelp_iff (List.mem_of_find?_eq_some hf)
          | some d => simp

/-- In every history of registrations and help commands, each help command prints what it should
exactly when help and dispatch agree each time. -/
theorem helpRun_printsExpected_iff (events : List CliEvent) :
    Admits PrintsExpected next initial events ↔ Admits HelpAgrees next initial events := by
  constructor
  · exact Admits.mono_of_invariant InList
      (fun l e h hok => ⟨(printsExpected_iff h e).mp hok, inList_next h e⟩) inList_initial
  · exact Admits.mono_of_invariant InList
      (fun l e h hok => ⟨(printsExpected_iff h e).mpr hok, inList_next h e⟩) inList_initial

def killAllHelp : List CliEvent :=
  [.register xCommandDefKill, .register xCommandDefKillAll,
    .help (some xCommandDefKillAll.pcCommand)]

theorem killAllHelp_prints_kill :
    ¬ ∀ events : List CliEvent, Admits PrintsExpected next initial events := by
  intro h
  have hlast := (h killAllHelp).2.2.1
  revert hlast
  decide +kernel

end CommandList

end RenesasDemo.Cli
