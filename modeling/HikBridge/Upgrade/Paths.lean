import HikBridge.Lib.Delimited
import HikBridge.Upgrade.Quote

/-!
This module contains the paths of Windows as `fs::path` has them, and the comparisons of `hik-bridge-upgrade`
by their texts.
-/

namespace HikBridge.Upgrade

section Text

def preferred (path : List Char) : List Char := path.map fun c => if isSeparator c then '\\' else c

def keepName (rooted : Bool) (kept : List (List Char)) (name : List Char) : List (List Char) :=
  if name = ['.'] then
    kept
  else if name = ['.', '.'] then
    match kept with
    | [] => if rooted then [] else [name]
    | last :: before => if last = ['.', '.'] then name :: kept else before
  else
    name :: kept

def join (names : List (List Char)) : List Char := ['\\'].intercalate names

def normalRelative (relative : List Char) : List Char :=
  let rooted := relative.head? == some '\\'
  let names := (Delimited.lines '\\' relative).filter fun name => name ≠ []
  let kept := (names.foldl (keepName rooted) []).reverse
  let closed := relative.getLast? == some '\\' || names.getLast? == some ['.'] || names.getLast? == some ['.', '.']
  (if rooted then ['\\'] else []) ++ join kept
    ++ if closed && kept ≠ [] && kept.getLast? ≠ some ['.', '.'] then ['\\'] else []

-- `fs::path::lexically_normal`
def lexicallyNormal (path : List Char) : List Char :=
  if path = [] then
    []
  else
    let path := preferred path
    let normal := path.take (rootNameLength path) ++ normalRelative (path.drop (rootNameLength path))
    if normal = [] then ['.'] else normal

end Text

section Compare

variable (towlower : Char → Char)

def same (a b : List Char) : Bool := (lexicallyNormal a).map towlower == (lexicallyNormal b).map towlower

def contains (parent child : List Char) : Bool :=
  let a := (lexicallyNormal parent).map towlower
  let b := (lexicallyNormal child).map towlower
  let a := if a.getLast? ≠ some '\\' then a ++ ['\\'] else a
  a.isPrefixOf b

end Compare

def Plain (text : List Char) : Prop := ∀ c ∈ text, isSeparator c = false

structure Filename where
  text : List Char
  nonempty : text ≠ []
  plain : Plain text
  not_dot : text ≠ ['.']
  not_dots : text ≠ ['.', '.']

-- `fs::path::root_name` of an absolute path
inductive Root where
  | drive (letter : Char) (isAlpha : letter.isAlpha = true)
  | server (name : List Char) (nonempty : name ≠ []) (plain : Plain name)

structure Path where
  root : Root
  names : List Filename

def Root.text (root : Root) : List Char :=
  match root with
  | .drive letter _ => [letter, ':']
  | .server name _ _ => '\\' :: '\\' :: name

-- What stands between the separators.
def Root.components (root : Root) : List (List Char) :=
  match root with
  | .drive letter _ => [[letter, ':']]
  | .server name _ _ => [[], [], name]

namespace Path

variable (path : Path)

def text : List Char := path.root.text ++ '\\' :: join (path.names.map Filename.text)

def components : List (List Char) := path.root.components ++ path.names.map Filename.text

-- `fs::path::root_path`
def rootPath : List Char := path.root.text ++ ['\\']

end Path

section Texts

variable {path : Path}

theorem Plain.not_mem {text : List Char} (h : Plain text) : '\\' ∉ text := by
  intro hmem
  cases h _ hmem

theorem Root.components_plain (root : Root) : ∀ component ∈ root.components, '\\' ∉ component := by
  cases root with
  | drive letter isAlpha =>
    intro component hcomponent hmem
    rw [List.mem_singleton.mp hcomponent] at hmem
    rcases List.mem_cons.mp hmem with rfl | hcolon
    . cases isAlpha
    . simp at hcolon
  | server name nonempty plain =>
    simp [Root.components, plain.not_mem]

theorem Path.components_plain (path : Path) : ∀ component ∈ path.components, '\\' ∉ component := by
  intro component hcomponent
  rcases List.mem_append.mp hcomponent with hroot | hname
  . exact path.root.components_plain component hroot
  . obtain ⟨name, _, rfl⟩ := List.mem_map.mp hname
    exact name.plain.not_mem

theorem join_nil : join [] = [] := rfl

theorem join_cons_cons (name next : List Char) (names : List (List Char))
    : join (name :: next :: names) = name ++ '\\' :: join (next :: names) := by
  simp [join, List.intercalate]

theorem join_append {names : List (List Char)} (h : names ≠ [])
    : join names ++ ['\\'] = names.flatMap fun name => name ++ ['\\'] := by
  induction names with
  | nil => contradiction
  | cons name names ih =>
    cases names with
    | nil => simp [join, List.intercalate]
    | cons next names =>
      rw [join_cons_cons, List.append_assoc, List.cons_append, ih (by simp), List.flatMap_cons]
      simp

theorem lines_join {names : List (List Char)} (h : ∀ name ∈ names, '\\' ∉ name ∧ name ≠ [])
    : Delimited.lines '\\' (join names) = names := by
  induction names with
  | nil => rfl
  | cons name names ih =>
    obtain ⟨hplain, hne⟩ := h name (by simp)
    cases names with
    | nil =>
      have hjoin : join [name] = name := by simp [join, List.intercalate]
      rw [hjoin, Delimited.lines_of_not_mem hplain, if_neg hne]
    | cons next names =>
      rw [join_cons_cons, Delimited.lines_eq, Delimited.getline_append_sep hplain]
      dsimp only
      rw [ih fun name hname => h name (by simp [hname])]

theorem Path.text_flatMap (path : Path)
    : (path.components.flatMap fun component => component ++ ['\\'])
        = if path.names = [] then path.text else path.text ++ ['\\'] := by
  have hroot : (path.root.components.flatMap fun component => component ++ ['\\']) = path.root.text ++ ['\\'] := by
    cases path.root <;> simp [Root.components, Root.text]
  unfold Path.components Path.text
  rw [List.flatMap_append, hroot]
  split
  . next h => simp [h, join_nil]
  . next h =>
    have hjoin := @join_append (path.names.map Filename.text) (by simpa using h)
    rw [List.append_assoc, List.append_assoc, List.cons_append, List.cons_append, hjoin]
    rfl

theorem rootNameLength_text (path : Path) : rootNameLength path.text = path.root.text.length := by
  unfold Path.text
  cases path.root with
  | drive letter isAlpha => simp [Root.text, rootNameLength, isAlpha]
  | server name nonempty plain =>
    obtain ⟨c, rest, rfl⟩ := List.exists_cons_of_ne_nil nonempty
    have hserver : (((c :: rest) ++ '\\' :: join (path.names.map Filename.text)).takeWhile fun c => !isSeparator c)
        = c :: rest := by
      rw [List.takeWhile_append_of_pos (fun c hc => by simp [plain c hc])]
      simp [isSeparator]
    have hsep : isSeparator '\\' = true := by decide
    rw [List.cons_append] at hserver
    simp [rootNameLength, Root.text, hsep, hserver]
    omega

theorem mem_join {names : List (List Char)} {c : Char} (h : c ∈ join names)
    : c = '\\' ∨ ∃ name ∈ names, c ∈ name := by
  induction names with
  | nil => cases h
  | cons name names ih =>
    cases names with
    | nil => exact .inr ⟨name, by simp, by simpa [join, List.intercalate] using h⟩
    | cons next names =>
      rw [join_cons_cons, List.mem_append, List.mem_cons] at h
      rcases h with hname | hsep | hrest
      . exact .inr ⟨name, by simp, hname⟩
      . exact .inl hsep
      . rcases ih hrest with hsep | ⟨other, hother, hc⟩
        . exact .inl hsep
        . exact .inr ⟨other, List.mem_cons_of_mem _ hother, hc⟩

theorem Root.text_separator (root : Root) {c : Char} (hc : c ∈ root.text) (hsep : isSeparator c = true) : c = '\\' := by
  cases root with
  | drive letter isAlpha =>
    rcases List.mem_cons.mp hc with rfl | hcolon
    . simp only [isSeparator, Bool.or_eq_true, beq_iff_eq] at hsep
      rcases hsep with rfl | rfl
      . rfl
      . cases isAlpha
    . rw [List.mem_singleton.mp hcolon] at hsep
      cases hsep
  | server name nonempty plain =>
    simp only [Root.text, List.mem_cons] at hc
    rcases hc with hc | hc | hc
    . exact hc
    . exact hc
    . rw [plain c hc] at hsep
      cases hsep

theorem preferred_text (path : Path) : preferred path.text = path.text := by
  unfold preferred
  rw [List.map_congr_left (g := id), List.map_id]
  intro c hc
  split
  . next hsep =>
    symm
    rcases List.mem_append.mp hc with hroot | hrest
    . exact path.root.text_separator hroot hsep
    . rcases List.mem_cons.mp hrest with hc | hjoin
      . exact hc
      . rcases mem_join hjoin with hc | ⟨name, hname, hc⟩
        . exact hc
        . obtain ⟨filename, _, rfl⟩ := List.mem_map.mp hname
          rw [filename.plain c hc] at hsep
          cases hsep
  . rfl

theorem keepName_text (rooted : Bool) (kept : List (List Char)) (name : Filename)
    : keepName rooted kept name.text = name.text :: kept := by
  unfold keepName
  rw [if_neg name.not_dot, if_neg name.not_dots]

theorem getLast?_join {names : List Filename} (h : names ≠ [])
    : ∃ last : Filename, names.getLast? = some last
        ∧ ∃ c ∈ last.text, ('\\' :: join (names.map Filename.text)).getLast? = some c := by
  induction names with
  | nil => contradiction
  | cons name names ih =>
    cases names with
    | nil =>
      refine ⟨name, rfl, name.text.getLast name.nonempty, List.getLast_mem _, ?_⟩
      have hjoin : join [name.text] = name.text := by simp [join, List.intercalate]
      rw [List.map_cons, List.map_nil, hjoin, List.getLast?_cons, List.getLast?_eq_some_getLast name.nonempty]
      rfl
    | cons next names =>
      obtain ⟨last, hlast, c, hc, heq⟩ := ih (by simp)
      refine ⟨last, by rw [List.getLast?_cons, hlast]; rfl, c, hc, ?_⟩
      rw [List.map_cons, List.map_cons, join_cons_cons, ← List.cons_append, List.getLast?_append]
      rw [List.map_cons] at heq
      rw [heq]
      rfl

-- The names of a canonical path are all kept.
theorem normalRelative_join (names : List Filename)
    : normalRelative ('\\' :: join (names.map Filename.text)) = '\\' :: join (names.map Filename.text) := by
  have hplain : ∀ name ∈ names.map Filename.text, '\\' ∉ name ∧ name ≠ [] := by
    intro name hname
    obtain ⟨filename, _, rfl⟩ := List.mem_map.mp hname
    exact ⟨filename.plain.not_mem, filename.nonempty⟩
  have hnames : (Delimited.lines '\\' ('\\' :: join (names.map Filename.text))).filter (fun name => name ≠ [])
      = names.map Filename.text := by
    rw [Delimited.lines, if_pos rfl, lines_join hplain, List.filter_cons_of_neg (by simp), List.filter_eq_self]
    intro name hname
    simpa using (hplain name hname).2
  have hkept : ∀ kept,
      (names.map Filename.text).foldl (keepName true) kept = (names.map Filename.text).reverse ++ kept := by
    clear hplain hnames
    induction names with
    | nil => simp
    | cons name names ih =>
      intro kept
      rw [List.map_cons, List.foldl_cons, keepName_text, ih]
      simp
  unfold normalRelative
  simp only [List.head?_cons, beq_self_eq_true, hnames, hkept, List.append_nil, List.reverse_reverse, if_true]
  by_cases hempty : names = []
  . simp [hempty, join_nil]
  . obtain ⟨last, hlast, c, hc, hopen⟩ := getLast?_join hempty
    have hsep : c ≠ '\\' := by
      rintro rfl
      exact last.plain.not_mem hc
    have hclosed : ¬(names.map Filename.text).getLast? = some ['.'] ∧ ¬(names.map Filename.text).getLast? = some ['.', '.'] := by
      rw [List.getLast?_map, hlast]
      exact ⟨fun h => last.not_dot (Option.some.inj h), fun h => last.not_dots (Option.some.inj h)⟩
    have hopen' : ¬('\\' :: join (names.map Filename.text)).getLast? = some '\\' := by
      rw [hopen]
      exact fun h => hsep (Option.some.inj h)
    rw [if_neg, List.append_nil]
    . rfl
    . simp only [beq_eq_false_iff_ne.mpr hclosed.1, beq_eq_false_iff_ne.mpr hclosed.2, beq_eq_false_iff_ne.mpr hopen']
      simp

theorem lexicallyNormal_text (path : Path) : lexicallyNormal path.text = path.text := by
  have hdrop : path.text.drop (rootNameLength path.text) = '\\' :: join (path.names.map Filename.text) := by
    rw [rootNameLength_text]
    exact List.drop_left
  have htake : path.text.take (rootNameLength path.text) = path.root.text := by
    rw [rootNameLength_text]
    exact List.take_left
  have hne : path.text ≠ [] := by
    simp [Path.text]
  unfold lexicallyNormal
  rw [if_neg hne, preferred_text]
  dsimp only
  rw [htake, hdrop, normalRelative_join]
  exact if_neg hne

end Texts

section Folded

variable {towlower : Char → Char} {path parent child : Path}

def Path.folded (towlower : Char → Char) (path : Path) : List (List Char) := path.components.map (List.map towlower)

-- A path is another one or lies inside it.
def Within (towlower : Char → Char) (parent child : Path) : Prop := parent.folded towlower <+: child.folded towlower

def Path.directoryText (towlower : Char → Char) (path : Path) : List Char :=
  (path.folded towlower).flatMap fun component => component ++ ['\\']

theorem names_eq_nil_iff {other : Path} (hfolded : path.folded towlower = other.folded towlower)
    : path.names = [] ↔ other.names = [] := by
  rcases path with ⟨root, names⟩
  rcases other with ⟨root', names'⟩
  have hlength := congrArg List.length hfolded
  cases root with
  | drive letter isAlpha =>
    cases root' with
    | drive letter' isAlpha' =>
      simp only [Path.folded, Path.components, Root.components, List.length_map, List.length_append,
        List.length_cons, List.length_nil] at hlength
      change names = [] ↔ names' = []
      rw [← List.length_eq_zero_iff, ← List.length_eq_zero_iff]
      omega
    | server name' nonempty' plain' =>
      simp [Path.folded, Path.components, Root.components] at hfolded
  | server name nonempty plain =>
    cases root' with
    | drive letter' isAlpha' =>
      simp [Path.folded, Path.components, Root.components] at hfolded
    | server name' nonempty' plain' =>
      simp only [Path.folded, Path.components, Root.components, List.length_map, List.length_append,
        List.length_cons, List.length_nil] at hlength
      change names = [] ↔ names' = []
      rw [← List.length_eq_zero_iff, ← List.length_eq_zero_iff]
      omega

variable (h : ∀ c, towlower c = '\\' ↔ c = '\\')

include h

theorem folded_plain : ∀ component ∈ path.folded towlower, '\\' ∉ component := by
  intro component hcomponent hmem
  obtain ⟨plain, hplain, rfl⟩ := List.mem_map.mp hcomponent
  obtain ⟨c, hc, hlower⟩ := List.mem_map.mp hmem
  rw [h] at hlower
  rw [hlower] at hc
  exact path.components_plain plain hplain hc

theorem directoryText_eq
    : path.directoryText towlower
        = if path.names = [] then path.text.map towlower else path.text.map towlower ++ ['\\'] := by
  have hlower : path.directoryText towlower
      = (path.components.flatMap fun component => component ++ ['\\']).map towlower := by
    unfold Path.directoryText Path.folded
    rw [List.flatMap_map, List.map_flatMap]
    simp [(h '\\').mpr rfl]
  rw [hlower, path.text_flatMap]
  split
  . rfl
  . simp [(h '\\').mpr rfl]

theorem getLast?_map_text : (path.text.map towlower).getLast? = some '\\' ↔ path.names = [] := by
  unfold Path.text
  rw [List.getLast?_map, List.getLast?_append]
  constructor
  . intro hlast
    by_contra hne
    obtain ⟨last, _, c, hc, hopen⟩ := getLast?_join hne
    rw [hopen] at hlast
    have hsep := (h c).mp (Option.some.inj hlast)
    rw [hsep] at hc
    exact last.plain.not_mem hc
  . intro hnil
    simp [hnil, join_nil, (h '\\').mpr rfl]

theorem directoryText_prefix
    : parent.directoryText towlower <+: child.directoryText towlower ↔ Within towlower parent child :=
  Delimited.flatMap_prefix_iff (folded_plain h) (folded_plain h)

theorem folded_of_directoryText (heq : parent.directoryText towlower = child.directoryText towlower)
    : parent.folded towlower = child.folded towlower := by
  have hle : Within towlower parent child := by
    rw [← directoryText_prefix h, heq]
  have hge : Within towlower child parent := by
    rw [← directoryText_prefix h, heq]
  exact hle.eq_of_length_le hge.length_le

theorem contains_iff
    : contains towlower parent.text child.text = true
        ↔ Within towlower parent child
          ∧ (parent.folded towlower ≠ child.folded towlower ∨ child.names = []) := by
  have hparent : (if (parent.text.map towlower).getLast? ≠ some '\\' then
      parent.text.map towlower ++ ['\\'] else parent.text.map towlower) = parent.directoryText towlower := by
    rw [directoryText_eq h]
    by_cases hroot : parent.names = []
    . rw [if_pos hroot, if_neg (not_not.mpr ((getLast?_map_text h).mpr hroot))]
    . rw [if_neg hroot, if_pos (fun hlast => hroot ((getLast?_map_text h).mp hlast))]
  unfold contains
  simp only [lexicallyNormal_text, hparent, List.isPrefixOf_iff_prefix]
  have hchild : child.directoryText towlower = _ := directoryText_eq h
  by_cases hroot : child.names = []
  . rw [if_pos hroot] at hchild
    rw [← hchild, directoryText_prefix h]
    simp [hroot]
  . rw [if_neg hroot] at hchild
    rw [← directoryText_prefix h, hchild, List.prefix_concat_iff]
    constructor
    . intro hprefix
      refine ⟨.inr hprefix, .inl ?_⟩
      intro hsame
      have hlength := hprefix.length_le
      unfold Path.directoryText at hchild hlength
      rw [hsame, hchild, List.length_append, List.length_singleton] at hlength
      omega
    . rintro ⟨heq | hprefix, hne⟩
      . rw [← hchild] at heq
        exact absurd (folded_of_directoryText h heq) (hne.resolve_right hroot)
      . exact hprefix

theorem same_iff {other : Path}
    : same towlower path.text other.text = true ↔ path.folded towlower = other.folded towlower := by
  unfold same
  rw [lexicallyNormal_text, lexicallyNormal_text, beq_iff_eq]
  constructor
  . intro htext
    apply folded_of_directoryText h
    have hroot : path.names = [] ↔ other.names = [] := by
      rw [← getLast?_map_text h, htext, getLast?_map_text h]
    rw [directoryText_eq h, directoryText_eq h, htext]
    simp only [hroot]
  . intro hfolded
    have hdirectory : path.directoryText towlower = other.directoryText towlower :=
      congrArg (List.flatMap _) hfolded
    rw [directoryText_eq h, directoryText_eq h] at hdirectory
    simp only [names_eq_nil_iff hfolded] at hdirectory
    split at hdirectory
    . exact hdirectory
    . exact List.append_cancel_right hdirectory

end Folded

end HikBridge.Upgrade
