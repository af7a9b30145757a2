import HikBridge.Lib.CommandLine

/-!
This module contains the command lines on which `hik-bridge-upgrade` starts other programs.
-/

namespace HikBridge.Upgrade

open CommandLine

def quote (value : List Char) : List Char := '"' :: (encode 0 value ++ ['"'])

section Paths

def isSeparator (c : Char) : Bool := c == '\\' || c == '/'

/--
The length of the root name of a path: a drive, or the server of a network path.
-/
def rootNameLength (path : List Char) : Nat :=
  match path with
  | c :: ':' :: _ => if c.isAlpha then 2 else 0
  | c :: d :: rest =>
    if isSeparator c && isSeparator d then
      match rest.takeWhile fun e => !isSeparator e with
      | [] => 0
      | server => 2 + server.length
    else
      0
  | _ => 0

-- `fs::path::filename`
def filename (path : List Char) : List Char :=
  ((path.drop (rootNameLength path)).reverse.takeWhile fun c => !isSeparator c).reverse

end Paths

section Run

variable {towlower : Char → Char} {exe : List Char} {args : List (List Char)}

/--
The command line that `run` hands to `CreateProcessW`. A text is what its code units stand for.
-/
def commandLine (towlower : Char → Char) (exe : List Char) (args : List (List Char))
    : Except String (List Char) :=
  let line := quote exe ++ args.flatMap fun arg => ' ' :: quote arg
  if (filename exe).map towlower = "cmd.exe".toList then
    if args = ["/d".toList, "/c".toList, "windows-service.cmd install /nopause".toList] then
      .ok (quote exe ++ " /d /c windows-service.cmd install /nopause".toList)
    else
      .error "Unexpected CMD command"
  else
    .ok line

theorem arguments_quote (args : List (List Char))
    : arguments (args.flatMap fun arg => ' ' :: quote arg) = args := by
  have hspaced := @arguments_spaced quote args fun arg _ _ => reads_encode arg
  rw [hspaced, List.filter_eq_self]
  intro arg _
  exact decide_eq_true (List.cons_ne_nil _ _)

theorem quote_unquoted (hquote : '"' ∉ exe) (hlast : exe.getLast? ≠ some '\\')
    : quote exe = '"' :: (exe ++ ['"']) := by
  rw [quote, encode_unquoted hquote hlast fun _ => rfl]
  rfl

/--
The program that is started finds the arguments that it was meant to have.
-/
theorem shellArguments_commandLine (hquote : '"' ∉ exe) (hlast : exe.getLast? ≠ some '\\')
    (hcmd : (filename exe).map towlower ≠ "cmd.exe".toList) (args : List (List Char))
    : (commandLine towlower exe args).map shellArguments = .ok (exe :: args) := by
  have hprogram : shellProgram (quote exe ++ args.flatMap fun arg => ' ' :: quote arg)
      = (exe, args.flatMap fun arg => ' ' :: quote arg) := by
    rw [quote_unquoted hquote hlast, List.cons_append, List.append_assoc]
    exact shellProgram_quoted hquote
  unfold commandLine
  rw [if_neg hcmd, Except.map, shellArguments, hprogram, arguments_quote]

/--
An argument with a quote between backslashes, one that ends with backslashes, and an empty one.
-/
theorem shellArguments_commandLine_backslashes
    : (commandLine id "C:\\new bridge\\hik.exe".toList
        ["a\\\\\"b".toList, "D:\\old bridge\\".toList, []]).map shellArguments
        = .ok ["C:\\new bridge\\hik.exe".toList, "a\\\\\"b".toList, "D:\\old bridge\\".toList, []] :=
  shellArguments_commandLine (by decide) (by decide) (by decide) _

end Run

end HikBridge.Upgrade
