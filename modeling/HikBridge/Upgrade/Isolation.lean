import HikBridge.Upgrade.Machine
import HikBridge.Upgrade.ManagedPe
import HikBridge.Upgrade.Paths

/-!
This module contains `validate_paths` and what it achieves: the new package and the installation lie apart, and
so do all directories that an upgrade makes beside the installation.
-/

namespace HikBridge.Upgrade

/--
What Windows says about paths. A path in other case is the same one, and what lies above something that
exists does exist. A drive without a separator, as a text for `attributes`, is its current directory.
-/
structure Windows where
  towlower : Char → Char
  towlower_separator : ∀ c, towlower c = '\\' ↔ c = '\\'
  -- `fs::is_directory`
  isDirectory : Path → Bool
  -- `fs::exists`
  isThere : Path → Bool
  directory_isThere : ∀ path, isDirectory path = true → isThere path = true
  above_isThere : ∀ parent child, Within towlower parent child → isThere child = true → isThere parent = true
  -- `GetFileAttributesW`, whether it has `FILE_ATTRIBUTE_REPARSE_POINT`
  attributes : List Char → Option Bool
  -- `GetWindowsDirectoryW`
  windows : Path
  -- `GetEnvironmentVariableW`, empty where there is none
  environment : String → List Char

-- What `no_links` asks for: the root name comes alone first.
def Path.parts (path : Path) : List (List Char) :=
  path.root.text :: path.names.inits.map fun names => (⟨path.root, names⟩ : Path).text

def noLinks (w : Windows) (path : Path) : Except String Unit :=
  require' (path.parts.all fun part => decide (w.attributes part ≠ some true))
    "Reparse points are not supported in upgrade paths"

def sharedRoots : List String := ["ProgramFiles", "ProgramFiles(x86)", "USERPROFILE", "ProgramData"]

def notShared (w : Windows) (target : Path) (name : String) : Except String Unit :=
  if w.environment name ≠ [] then
    require' (!same w.towlower target.text (w.environment name)) "Refusing to replace a shared system/profile root"
  else
    .ok ()

def validatePaths (w : Windows) (source target : Path) : Except String Unit := do
  noLinks w source
  noLinks w target
  require' (w.isDirectory source && w.isDirectory target) "Source/installation directory missing"
  require' (!same w.towlower source.text target.text && !contains w.towlower source.text target.text
    && !contains w.towlower target.text source.text) "新包目录不能与旧安装目录相同或互相包含，请解压到另一个独立目录"
  require' (decide (target.text ≠ target.rootPath)) "Refusing to replace a drive root"
  require' (!same w.towlower target.text w.windows.text && !contains w.towlower w.windows.text target.text)
    "Refusing to replace a Windows system directory"
  sharedRoots.forM (notShared w target)

section Derived

-- The suffix that `execute` chooses, which has no separator.
structure Suffix where
  text : List Char
  plain : Plain text

def Path.filename (path : Path) : List Char := (path.names.getLast?.map Filename.text).getD []

-- The end of a directory name that no other part of the name can turn into `.` or `..`.
structure IsTail (tail : List Char) : Prop where
  plain : tail.all (fun c => !isSeparator c) = true
  nonempty : tail ≠ []
  dotless : tail.getLast? ≠ some '.'

instance {tail : List Char} : Decidable (IsTail tail) :=
  decidable_of_iff (tail.all (fun c => !isSeparator c) = true ∧ tail ≠ [] ∧ tail.getLast? ≠ some '.')
    ⟨fun h => ⟨h.1, h.2.1, h.2.2⟩, fun h => ⟨h.plain, h.nonempty, h.dotless⟩⟩

theorem Path.filename_plain (path : Path) : Plain path.filename := by
  unfold Path.filename
  cases path.names.getLast? with
  | none =>
    intro c hc
    cases hc
  | some name => exact name.plain

theorem IsTail.getLast?_append {tail : List Char} (h : IsTail tail) (front : List Char)
    : (front ++ tail).getLast? ≠ some '.' := by
  obtain ⟨c, hc⟩ : ∃ c, tail.getLast? = some c := by
    rw [← Option.isSome_iff_exists, List.getLast?_isSome]
    exact h.nonempty
  have hdot := h.dotless
  rw [hc] at hdot
  rw [List.getLast?_append, hc]
  exact hdot

def Path.derivedName (target : Path) (suffix : Suffix) (tail : List Char) (h : IsTail tail) : Filename where
  text := target.filename ++ suffix.text ++ tail
  nonempty := by
    simp [h.nonempty]
  plain := by
    intro c hc
    rcases List.mem_append.mp hc with hfront | htail
    . rcases List.mem_append.mp hfront with hname | hsuffix
      . exact target.filename_plain c hname
      . exact suffix.plain c hsuffix
    . simpa using List.all_eq_true.mp h.plain c htail
  not_dot heq := h.getLast?_append (target.filename ++ suffix.text) (by rw [heq]; rfl)
  not_dots heq := h.getLast?_append (target.filename ++ suffix.text) (by rw [heq]; rfl)

def Path.beside (target : Path) (name : Filename) : Path where
  root := target.root
  names := target.names.dropLast ++ [name]

def Place.path (target : Path) (suffix : Suffix) (place : Place) : Path :=
  match place with
  | .target => target
  | .backup => target.beside (target.derivedName suffix ['-', 'b', 'a', 'c', 'k', 'u', 'p'] (by decide))
  | .staged => target.beside (target.derivedName suffix ['-', 'n', 'e', 'w'] (by decide))
  | .failed => target.beside (target.derivedName suffix ['-', 'f', 'a', 'i', 'l', 'e', 'd'] (by decide))

end Derived

section Isolation

variable {w : Windows} {source target : Path}

structure Isolated (w : Windows) (a b : Path) : Prop where
  below : ¬Within w.towlower a b
  above : ¬Within w.towlower b a

-- No part of an absolute path is a reparse point.
def LinkFree (w : Windows) (path : Path) : Prop :=
  ∀ names, names <+: path.names → w.attributes (⟨path.root, names⟩ : Path).text ≠ some true

-- A path is one of the shared directories.
def SharedRoot (w : Windows) (path : Path) : Prop :=
  ∃ name ∈ sharedRoots, w.environment name ≠ [] ∧ same w.towlower path.text (w.environment name) = true

structure Plainly (w : Windows) (path : Path) : Prop where
  isDirectory : w.isDirectory path = true
  notRoot : path.names ≠ []
  notWindows : ¬Within w.towlower w.windows path
  notShared : ¬SharedRoot w path
  linkFree : LinkFree w path

structure Eligible (w : Windows) (source target : Path) : Prop where
  plainSource : Plainly w source
  plainTarget : Plainly w target
  isolated : Isolated w source target

-- The current directory of the drive is no reparse point.
def CurrentPlain (w : Windows) (path : Path) : Prop := w.attributes path.root.text ≠ some true

structure Accepted (w : Windows) (source target : Path) : Prop where
  sourceCurrent : CurrentPlain w source
  sourceLinkFree : LinkFree w source
  targetCurrent : CurrentPlain w target
  targetLinkFree : LinkFree w target
  sourceDirectory : w.isDirectory source = true
  targetDirectory : w.isDirectory target = true
  isolated : Isolated w source target
  notRoot : target.names ≠ []
  notWindows : ¬Within w.towlower w.windows target
  notShared : ¬SharedRoot w target

theorem require'_eq_ok_iff {test : Bool} {message : String} : require' test message = .ok () ↔ test = true := by
  cases test <;> simp [require']

theorem andThen_eq_ok_iff {first rest : Except String Unit}
    : (do first; rest) = .ok () ↔ first = .ok () ∧ rest = .ok () := by
  cases first <;> simp [bind, Except.bind]

theorem forM_eq_ok_iff {check : String → Except String Unit} (names : List String)
    : names.forM check = .ok () ↔ ∀ name ∈ names, check name = .ok () := by
  induction names with
  | nil => simp [pure, Except.pure]
  | cons name names ih =>
    change (do check name; names.forM check) = _ ↔ _
    rw [andThen_eq_ok_iff, ih]
    simp

theorem noLinks_eq_ok_iff {path : Path} : noLinks w path = .ok () ↔ CurrentPlain w path ∧ LinkFree w path := by
  unfold noLinks LinkFree CurrentPlain
  rw [require'_eq_ok_iff, List.all_eq_true]
  unfold Path.parts
  simp only [List.forall_mem_cons, List.forall_mem_map, decide_eq_true_eq, List.mem_inits]

theorem not_within_iff {parent child : Path}
    : (same w.towlower parent.text child.text = false ∧ contains w.towlower parent.text child.text = false)
        ↔ ¬Within w.towlower parent child := by
  rw [← Bool.not_eq_true, ← Bool.not_eq_true, same_iff w.towlower_separator, contains_iff w.towlower_separator]
  constructor
  . rintro ⟨hne, hcontains⟩ hwithin
    exact hcontains ⟨hwithin, .inl hne⟩
  . intro hwithin
    refine ⟨?_, fun hcontains => hwithin hcontains.1⟩
    intro heq
    unfold Within at hwithin
    rw [heq] at hwithin
    exact hwithin (List.prefix_refl _)

theorem same_comm (w : Windows) (a b : Path) : same w.towlower a.text b.text = same w.towlower b.text a.text := by
  rw [Bool.eq_iff_iff, same_iff w.towlower_separator, same_iff w.towlower_separator]
  exact eq_comm

theorem isolated_iff {a b : Path}
    : ((same w.towlower a.text b.text = false ∧ contains w.towlower a.text b.text = false)
        ∧ contains w.towlower b.text a.text = false) ↔ Isolated w a b := by
  constructor
  . rintro ⟨⟨hsame, hbelow⟩, habove⟩
    refine ⟨not_within_iff.mp ⟨hsame, hbelow⟩, not_within_iff.mp ⟨?_, habove⟩⟩
    rw [same_comm]
    exact hsame
  . rintro ⟨hbelow, habove⟩
    exact ⟨not_within_iff.mpr hbelow, (not_within_iff.mpr habove).2⟩

theorem text_eq_rootPath_iff {path : Path} : path.text = path.rootPath ↔ path.names = [] := by
  unfold Path.text Path.rootPath
  constructor
  . intro htext
    by_contra hne
    obtain ⟨last, _, c, hc, hlast⟩ := getLast?_join hne
    rw [List.append_cancel_left htext] at hlast
    rw [← Option.some.inj hlast] at hc
    exact last.plain.not_mem hc
  . intro hnil
    rw [hnil]
    rfl

theorem notShared_eq_ok_iff {name : String}
    : notShared w target name = .ok () ↔
        ¬(w.environment name ≠ [] ∧ same w.towlower target.text (w.environment name) = true) := by
  unfold notShared
  split
  . next h => simp [require'_eq_ok_iff, h]
  . next h => simp [h]

theorem validatePaths_eq_ok_iff : validatePaths w source target = .ok () ↔ Accepted w source target := by
  unfold validatePaths
  simp only [andThen_eq_ok_iff, noLinks_eq_ok_iff, require'_eq_ok_iff, forM_eq_ok_iff, notShared_eq_ok_iff,
    Bool.and_eq_true, Bool.not_eq_true', decide_eq_true_eq]
  rw [isolated_iff, same_comm w target w.windows, not_within_iff, Ne, text_eq_rootPath_iff]
  constructor
  . rintro ⟨⟨hsource, hsourceLinks⟩, ⟨htarget, htargetLinks⟩, ⟨hsourceDir, htargetDir⟩, hisolated, hroot, hwindows,
      hshared⟩
    refine ⟨hsource, hsourceLinks, htarget, htargetLinks, hsourceDir, htargetDir, hisolated, hroot, hwindows, ?_⟩
    rintro ⟨name, hname, hvalue⟩
    exact hshared name hname hvalue
  . intro h
    refine ⟨⟨h.sourceCurrent, h.sourceLinkFree⟩, ⟨h.targetCurrent, h.targetLinkFree⟩,
      ⟨h.sourceDirectory, h.targetDirectory⟩, h.isolated, h.notRoot, h.notWindows, ?_⟩
    intro name hname hvalue
    exact h.notShared ⟨name, hname, hvalue⟩

-- The three new directories are not there yet.
def Unused (w : Windows) (target : Path) (suffix : Suffix) : Prop :=
  ∀ place : Place, place ≠ .target → w.isThere (place.path target suffix) = false

/--
Two paths that `validate_paths` accepts lie apart, and so does every place derived from the target. A rename
of a directory moves what lies in it, and a copy makes the directory it copies to and what lies in it.
-/
structure PathIsolation (w : Windows) (source target : Path) : Prop where
  isolated : validatePaths w source target = .ok () → Isolated w source target ∧ target.names ≠ []
  derived : validatePaths w source target = .ok () →
    ∀ suffix, Unused w target suffix → ∀ place : Place, Isolated w source (place.path target suffix)
  copied : validatePaths w source target = .ok () → ∀ suffix, Unused w target suffix →
    ∀ visited made, Within w.towlower source visited → Within w.towlower (Place.staged.path target suffix) made →
      visited.folded w.towlower ≠ made.folded w.towlower
  accepted : Eligible w source target → validatePaths w source target = .ok ()

theorem Path.folded_beside (towlower : Char → Char) (name : Filename) (h : target.names ≠ [])
    : ∃ parent last, target.folded towlower = parent ++ [last]
        ∧ (target.beside name).folded towlower = parent ++ [name.text.map towlower] := by
  refine ⟨(target.root.components ++ target.names.dropLast.map Filename.text).map (List.map towlower),
    (target.names.getLast h).text.map towlower, ?_, ?_⟩
  . unfold Path.folded Path.components
    nth_rewrite 1 [← List.dropLast_append_getLast h]
    simp
  . simp [Path.folded, Path.components, Path.beside]

theorem Accepted.beside (h : Accepted w source target) {name : Filename}
    (hunused : w.isThere (target.beside name) = false) : Isolated w source (target.beside name) := by
  have habove : ¬Within w.towlower (target.beside name) source := by
    intro hwithin
    have hthere := w.above_isThere _ _ hwithin (w.directory_isThere _ h.sourceDirectory)
    rw [hunused] at hthere
    cases hthere
  refine ⟨?_, habove⟩
  intro hwithin
  obtain ⟨parent, last, htarget, hbeside⟩ := target.folded_beside w.towlower name h.notRoot
  unfold Within at hwithin habove
  rw [hbeside, List.prefix_concat_iff] at hwithin
  rcases hwithin with heq | hprefix
  . rw [heq, hbeside] at habove
    exact habove (List.prefix_refl _)
  . apply h.isolated.below
    unfold Within
    rw [htarget]
    exact hprefix.trans (List.prefix_append _ _)

theorem Accepted.place (h : Accepted w source target) {suffix : Suffix} (hunused : Unused w target suffix)
    (place : Place) : Isolated w source (place.path target suffix) := by
  cases place with
  | target => exact h.isolated
  | backup => exact h.beside (hunused .backup (by decide))
  | staged => exact h.beside (hunused .staged (by decide))
  | failed => exact h.beside (hunused .failed (by decide))

theorem Isolated.folded_ne {a b visited made : Path} (h : Isolated w a b) (hvisited : Within w.towlower a visited)
    (hmade : Within w.towlower b made) : visited.folded w.towlower ≠ made.folded w.towlower := by
  intro heq
  unfold Within at hvisited hmade
  rw [heq] at hvisited
  rcases List.prefix_or_prefix_of_prefix hvisited hmade with hbelow | habove
  . exact h.below hbelow
  . exact h.above habove

theorem accepted_iff_of_eligible (h : Eligible w source target)
    : Accepted w source target ↔ CurrentPlain w source ∧ CurrentPlain w target := by
  constructor
  . intro haccepted
    exact ⟨haccepted.sourceCurrent, haccepted.targetCurrent⟩
  . rintro ⟨hsource, htarget⟩
    exact ⟨hsource, h.plainSource.linkFree, htarget, h.plainTarget.linkFree, h.plainSource.isDirectory,
      h.plainTarget.isDirectory, h.isolated, h.plainTarget.notRoot, h.plainTarget.notWindows, h.plainTarget.notShared⟩

/--
The directories of an upgrade are apart whenever it goes on, but it goes on only where the current directories
of both drives are no reparse points, which are no part of the paths.
-/
theorem pathIsolation_iff (w : Windows) (source target : Path)
    : PathIsolation w source target
        ↔
      (Eligible w source target → CurrentPlain w source ∧ CurrentPlain w target) := by
  constructor
  . intro h heligible
    rw [← accepted_iff_of_eligible heligible, ← validatePaths_eq_ok_iff]
    exact h.accepted heligible
  . intro h
    constructor
    . intro hvalid
      have haccepted := validatePaths_eq_ok_iff.mp hvalid
      exact ⟨haccepted.isolated, haccepted.notRoot⟩
    . intro hvalid suffix hunused place
      exact (validatePaths_eq_ok_iff.mp hvalid).place hunused place
    . intro hvalid suffix hunused visited made
      exact ((validatePaths_eq_ok_iff.mp hvalid).place hunused .staged).folded_ne
    . intro heligible
      rw [validatePaths_eq_ok_iff, accepted_iff_of_eligible heligible]
      exact h heligible

end Isolation

section Junction

theorem toLower_separator (c : Char) : c.toLower = '\\' ↔ c = '\\' := by
  constructor
  . intro h
    unfold Char.toLower at h
    split at h
    . next hupper =>
      have hval := congrArg (fun c => c.val.toNat) h
      have hle : c.val.toNat ≤ 90 := hupper.2
      have hge : 65 ≤ c.val.toNat := hupper.1
      change (c.val.toNat + 32) % 2 ^ 32 = 92 at hval
      omega
    . exact h
  . rintro rfl
    rfl

def nameOf (text : List Char) (h : IsTail text) : Filename where
  text
  nonempty := h.nonempty
  plain c hc := by simpa using List.all_eq_true.mp h.plain c hc
  not_dot heq := h.getLast?_append [] (by rw [heq]; rfl)
  not_dots heq := h.getLast?_append [] (by rw [heq]; rfl)

def onDrive (names : List Filename) : Path := ⟨.drive 'C' (by decide), names⟩

def newPackage : Path := onDrive [nameOf ['n', 'e', 'w'] (by decide)]

def oldPackage : Path := onDrive [nameOf ['o', 'l', 'd'] (by decide)]

def junction : Windows where
  towlower := Char.toLower
  towlower_separator := toLower_separator
  isDirectory path := decide (path.folded Char.toLower <+: newPackage.folded Char.toLower
    ∨ path.folded Char.toLower <+: oldPackage.folded Char.toLower)
  isThere path := decide (path.folded Char.toLower <+: newPackage.folded Char.toLower
    ∨ path.folded Char.toLower <+: oldPackage.folded Char.toLower)
  directory_isThere _ h := h
  above_isThere parent child hwithin h := by
    rw [decide_eq_true_eq] at h ⊢
    exact h.imp hwithin.trans hwithin.trans
  attributes text := some (decide (text = ['C', ':']))
  windows := onDrive [nameOf ['W', 'i', 'n', 'd', 'o', 'w', 's'] (by decide)]
  environment _ := []

theorem plainly_junction (name : Filename) (hdirectory : junction.isDirectory (onDrive [name]) = true)
    (hwindows : ¬Within Char.toLower junction.windows (onDrive [name])) : Plainly junction (onDrive [name]) := by
  refine ⟨hdirectory, List.cons_ne_nil _ _, hwindows, ?_, ?_⟩
  . rintro ⟨_, _, hvalue, _⟩
    exact hvalue rfl
  . intro names _
    simp [junction, onDrive, Path.text, Root.text]

theorem validatePaths_junction : Eligible junction newPackage oldPackage
    ∧ validatePaths junction newPackage oldPackage = .error "Reparse points are not supported in upgrade paths" := by
  refine ⟨⟨plainly_junction _ ?_ ?_, plainly_junction _ ?_ ?_, ?_, ?_⟩, rfl⟩
  . decide
  . unfold Within
    decide
  . decide
  . unfold Within
    decide
  . unfold Within
    decide
  . unfold Within
    decide

end Junction

end HikBridge.Upgrade
