import Mathlib.Data.Bool.AllAny
import HikBridge.Install.Script

/-!
This module contains what the texts of the script come to: which image path the service has after the
commands that set it, and when the path that `snapshot_service` reads is the one that is registered.
-/

namespace HikBridge.Install

open CommandLine

section Package

variable {p : Package}

theorem Package.exe_unquoted : '"' ∉ p.exe := by
  unfold Package.exe
  rw [List.mem_append]
  rintro (h | h)
  . exact p.unquoted h
  . revert h
    decide

theorem Package.config_unquoted : '"' ∉ p.config := by
  unfold Package.config
  rw [List.mem_append]
  rintro (h | h)
  . exact p.unquoted h
  . revert h
    decide

theorem Package.quotedImage_eq : p.quotedImage = '"' :: escape p.image ++ ['"'] := by
  have hmiddle : escape "\" service --config \"".toList = "\\\" service --config \\\"".toList := by decide
  have hopen : escape (['"'] ++ p.exe) = "\\\"".toList ++ p.exe := by
    rw [escape_append, escape_unquoted Package.exe_unquoted]
    rfl
  show "\"\\\"".toList ++ p.exe ++ _ ++ p.config ++ "\\\"\"".toList
    = '"' :: escape (['"'] ++ p.exe ++ _ ++ p.config ++ ['"']) ++ ['"']
  rw [escape_append, escape_append, escape_append, hopen, hmiddle, escape_unquoted Package.config_unquoted]
  simp [escape]

theorem Package.quotable_exe : Quotable p.exe := by
  apply quotable_of_unquoted Package.exe_unquoted
  unfold Package.exe
  rw [List.getLast?_append_of_ne_nil _ (by decide)]
  decide

theorem Package.quotable_config : Quotable p.config := by
  apply quotable_of_unquoted Package.config_unquoted
  unfold Package.config
  rw [List.getLast?_append_of_ne_nil _ (by decide)]
  decide

theorem Package.quotable_image : Quotable p.image := by
  have hquote : Quotable ['"'] := by decide
  have hmiddle : Quotable "\" service --config \"".toList := by decide
  exact quotable_append (quotable_append (quotable_append (quotable_append hquote Package.quotable_exe)
    hmiddle) Package.quotable_config) hquote

end Package

section Configure

variable {p : Package} {service : Service} {image : List Char} {start : StartType}

@[simp]
theorem StartType.ofWord_word : StartType.ofWord start.word = some start := by
  cases start
  all_goals decide

@[simp]
theorem StartType.word_word : Word start.word := by
  cases start
  all_goals decide

theorem arguments_imageLine (h : Quotable image) {verb rest : List Char} (hverb : Word verb)
    : arguments (verb ++ ' ' :: ("hikbridge".toList ++ ' ' :: ("binPath=".toList ++ ' ' ::
          ('"' :: escape image ++ ['"'] ++ ' ' :: rest))))
        = [verb, "hikbridge".toList, "binPath=".toList, image] ++ arguments rest := by
  rw [arguments_word hverb, arguments_word (by decide), arguments_word (by decide)]
  rw [List.append_assoc, List.singleton_append, arguments_quoted h]
  rfl

def Service.registered (image : List Char) (start : StartType) (service : Service) : Service :=
  { service with image, expandable := true, start }

theorem configure_state {options : List (List Char)} {result : Service}
    (h : service.configure options = some result) : result.state = service.state := by
  fun_induction Service.configure options service with
  | case1 service =>
    injection h with h
    rw [h]
  | case2 => cases h
  | case3 _ _ _ ih => exact ih h
  | case4 _ _ _ _ _ _ ih => exact ih h
  | case5 => cases h
  | case6 _ _ _ _ _ _ _ ih => exact ih h
  | case7 => cases h

theorem configured_restoreLine (h : Quotable image)
    : service.configured (restoreLine image start) = some (service.registered image start) := by
  have hline : arguments (restoreLine image start)
      = ["config".toList, "hikbridge".toList, "binPath=".toList, image, "start=".toList, start.word] := by
    simp only [restoreLine, spaced]
    rw [arguments_imageLine h (by decide), arguments_word (by decide), arguments_lastWord StartType.word_word]
    rfl
  unfold Service.configured
  rw [hline]
  simp [Service.configure, Service.registered]

theorem configured_updateLine
    : service.configured (updateLine p) = some (service.registered p.image .auto) := by
  have hline : updateLine p = restoreLine p.image .auto := by
    unfold updateLine restoreLine
    rw [Package.quotedImage_eq]
    rfl
  rw [hline, configured_restoreLine Package.quotable_image]

theorem configured_createLine
    : service.configured (createLine p) = some (service.registered p.image .auto) := by
  have hline : arguments (createLine p)
      = ["create".toList, "hikbridge".toList, "binPath=".toList, p.image]
        ++ ["start=".toList, "auto".toList, "obj=".toList, "LocalSystem".toList, "DisplayName=".toList,
          "Hik SDK HTTP Bridge".toList] := by
    simp only [createLine, spaced]
    rw [Package.quotedImage_eq, arguments_imageLine Package.quotable_image (by decide)]
    exact congrArg _ (by decide)
  have hauto : StartType.ofWord ['a', 'u', 't', 'o'] = some .auto := by decide
  unfold Service.configured
  rw [hline]
  simp [Service.configure, Service.registered, hauto]

end Configure

section Reports

variable {codePage : Char → List Char} {service : Service} {text : List Char}

def Survives (codePage : Char → List Char) (text : List Char) : Prop := ∀ c ∈ text, codePage c = [c]

instance (codePage : Char → List Char) (text : List Char) : Decidable (Survives codePage text) :=
  List.decidableBAll _ text

/--
A report of the image path gives back the path, and the commands that set it do.
-/
structure Rereadable (codePage : Char → List Char) (image : List Char) : Prop where
  survives : Survives codePage image
  oneLine : ∀ c ∈ image, c ≠ '\r' ∧ c ≠ '\n'
  unpadded : ∀ c, image.head? = some c → ¬ Blank c
  quotable : Quotable image

theorem redirected_eq (h : Survives codePage text) : redirected codePage text = text := by
  unfold redirected
  induction text with
  | nil => rfl
  | cons c text ih =>
    rw [List.flatMap_cons, h c List.mem_cons_self, ih fun d hd => h d (List.mem_cons_of_mem c hd)]
    rfl

theorem skipBlanks_unpadded (h : ∀ c, text.head? = some c → ¬ Blank c) : skipBlanks text = text := by
  cases text with
  | nil => rfl
  | cons c text =>
    unfold skipBlanks
    rw [List.dropWhile_cons_of_neg]
    simpa using h c rfl

theorem tokens_expandable
    : tokens ("    ImagePath    ".toList ++ "REG_EXPAND_SZ".toList ++ "    ".toList ++ text)
        = some ("REG_EXPAND_SZ".toList, skipBlanks text) := rfl

theorem tokens_plain
    : tokens ("    ImagePath    ".toList ++ "REG_SZ".toList ++ "    ".toList ++ text)
        = some ("REG_SZ".toList, skipBlanks text) := rfl

theorem splitOnP_oneLine {prologue : List Char} (hprologue : ∀ c ∈ prologue, c ≠ '\r' ∧ c ≠ '\n')
    (h : ∀ c ∈ text, c ≠ '\r' ∧ c ≠ '\n')
    : (prologue ++ text).splitOnP (fun c => c = '\r' ∨ c = '\n') = [prologue ++ text] := by
  apply List.splitOnP_eq_singleton
  intro c hc
  have hline := (List.mem_append.mp hc).elim (hprologue c) (h c)
  simp [hline]

theorem imageReport_eq (h : Rereadable codePage service.image)
    : imageReport codePage service =
      let kind := if service.expandable then "REG_EXPAND_SZ".toList else "REG_SZ".toList
      [[], "HKEY_LOCAL_MACHINE\\SYSTEM\\CurrentControlSet\\Services\\hikbridge".toList,
        "    ImagePath    ".toList ++ kind ++ "    ".toList ++ service.image] := by
  unfold imageReport
  dsimp only
  rw [redirected_eq h.survives, splitOnP_oneLine _ h.oneLine]
  . rfl
  . split
    . exact List.all_iff_forall_prop.mp (by decide)
    . exact List.all_iff_forall_prop.mp (by decide)

theorem readImage_eq (h : Rereadable codePage service.image) : readImage codePage service = service.image := by
  have hskip : skipBlanks service.image = service.image := skipBlanks_unpadded h.unpadded
  have hempty : tokens [] = none := by decide
  have hkey : tokens "HKEY_LOCAL_MACHINE\\SYSTEM\\CurrentControlSet\\Services\\hikbridge".toList = none := by
    decide
  have hkinds : "REG_EXPAND_SZ".toList ≠ "REG_SZ".toList := by decide
  unfold readImage
  rw [imageReport_eq h]
  cases service.expandable with
  | true =>
    simp only [captured, List.foldl_cons, List.foldl_nil, hempty, hkey, if_true, tokens_expandable, hskip]
    rw [if_neg hkinds]
    split
    . next hnil => rw [hnil]
    . rfl
  | false =>
    simp only [captured, List.foldl_cons, List.foldl_nil, hempty, hkey, Bool.false_eq_true, if_false,
      tokens_plain, hskip]
    rw [if_neg hkinds.symm, if_pos rfl, if_pos trivial]

end Reports

end HikBridge.Install
