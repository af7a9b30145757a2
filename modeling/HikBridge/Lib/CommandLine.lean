import Mathlib.Data.List.Infix

/-!
This module contains the rules by which a Windows program divides its command line into arguments, and
the lemmas about the texts that come through them unchanged. Backslashes are special only before a
quote: an even run of them is halved and the quote delimits, of an odd run the last one makes the quote
a character.
-/

namespace CommandLine

def Blank (c : Char) : Prop := c = ' ' ∨ c = '\t'

instance (c : Char) : Decidable (Blank c) := inferInstanceAs (Decidable (_ ∨ _))

-- After a closing quote one more quote is a character and the quoted part goes on.
inductive Mode where
  | plain
  | quoted
  | closing
  deriving DecidableEq

def Mode.settled : Mode → Mode
  | .closing => .plain
  | mode => mode

def Mode.toggled : Mode → Mode
  | .quoted => .closing
  | _ => .quoted

def emit (text : List Char) (r : List Char × List Char) : List Char × List Char := (text ++ r.1, r.2)

def scan : Mode → Nat → List Char → List Char × List Char
  | _, slashes, [] => (List.replicate slashes '\\', [])
  | mode, slashes, c :: rest =>
    if c = '\\' then scan mode.settled (slashes + 1) rest
    else if c = '"' then
      if slashes % 2 = 1 then emit (List.replicate (slashes / 2) '\\' ++ ['"']) (scan mode 0 rest)
      else if mode = .closing then emit ['"'] (scan .quoted 0 rest)
      else emit (List.replicate (slashes / 2) '\\') (scan mode.toggled 0 rest)
    else if mode ≠ .quoted ∧ Blank c then (List.replicate slashes '\\', c :: rest)
    else emit (List.replicate slashes '\\' ++ [c]) (scan mode.settled 0 rest)

def skipBlanks (text : List Char) : List Char := text.dropWhile fun c => decide (Blank c)

def argumentsFuel : Nat → List Char → List (List Char)
  | 0, _ => []
  | fuel + 1, text =>
    match skipBlanks text with
    | [] => []
    | c :: rest => (scan .plain 0 (c :: rest)).1 :: argumentsFuel fuel (scan .plain 0 (c :: rest)).2

def arguments (text : List Char) : List (List Char) := argumentsFuel (text.length + 1) text

section Scan

variable {mode : Mode} {slashes : Nat} {c : Char} {text rest word value : List Char}

theorem scan_length_le : (scan mode slashes text).2.length ≤ text.length := by
  fun_induction scan mode slashes text with
  | case1 => simp
  | case6 => simp
  | _ =>
    simp only [emit, List.length_cons] at *
    omega

theorem scan_length_lt (h : ¬ Blank c) : (scan .plain slashes (c :: rest)).2.length < (c :: rest).length := by
  have hrest : ∀ mode slashes, (scan mode slashes rest).2.length ≤ rest.length :=
    fun _ _ => scan_length_le
  unfold scan
  simp only [h, and_false, if_false, emit, List.length_cons]
  split
  . exact Nat.lt_succ_of_le (hrest _ _)
  . repeat' split
    all_goals exact Nat.lt_succ_of_le (hrest _ _)

theorem skipBlanks_length_le : (skipBlanks text).length ≤ text.length :=
  (List.dropWhile_sublist _).length_le

theorem not_blank_of_skipBlanks (h : skipBlanks text = c :: rest) : ¬ Blank c := by
  intro hblank
  have := List.head?_dropWhile_not (fun c => decide (Blank c)) text
  unfold skipBlanks at h
  rw [h] at this
  simp [hblank] at this

-- What is behind an argument is shorter than the text it was read from.
theorem scan_skipBlanks_length_lt (h : skipBlanks text = c :: rest)
    : (scan .plain 0 (c :: rest)).2.length < text.length := by
  have hle : (skipBlanks text).length ≤ text.length := skipBlanks_length_le
  have hlt : (scan .plain 0 (c :: rest)).2.length < (c :: rest).length :=
    scan_length_lt (not_blank_of_skipBlanks h)
  rw [h] at hle
  omega

theorem argumentsFuel_stable {fuel fuel' : Nat} (h : text.length < fuel) (h' : text.length < fuel')
    : argumentsFuel fuel text = argumentsFuel fuel' text := by
  induction fuel generalizing fuel' text with
  | zero => omega
  | succ fuel ih =>
    obtain ⟨fuel', rfl⟩ : ∃ n, fuel' = n + 1 := ⟨fuel' - 1, by omega⟩
    unfold argumentsFuel
    split
    . rfl
    . next c rest hskip =>
      have hlt := scan_skipBlanks_length_lt hskip
      exact congrArg _ (ih (by omega) (by omega))

theorem arguments_eq : arguments text =
    match skipBlanks text with
    | [] => []
    | c :: rest => (scan .plain 0 (c :: rest)).1 :: arguments (scan .plain 0 (c :: rest)).2 := by
  unfold arguments
  rw [argumentsFuel]
  split
  . rfl
  . next c rest hskip =>
    have hlt := scan_skipBlanks_length_lt hskip
    exact congrArg _ (argumentsFuel_stable (by omega) (Nat.lt_succ_self _))

theorem arguments_blank (h : Blank c) : arguments (c :: rest) = arguments rest := by
  have hskip : skipBlanks (c :: rest) = skipBlanks rest := by
    simp [skipBlanks, h]
  rw [arguments_eq, hskip, ← arguments_eq]

theorem arguments_cons (h : ¬ Blank c)
    : arguments (c :: rest) = (scan .plain 0 (c :: rest)).1 :: arguments (scan .plain 0 (c :: rest)).2 := by
  have hskip : skipBlanks (c :: rest) = c :: rest := by
    simp [skipBlanks, h]
  rw [arguments_eq, hskip]

end Scan

section Words

variable {slashes : Nat} {c : Char} {text rest word value : List Char} {token : List Char → List Char}
  {args : List (List Char)}

def Word (word : List Char) : Prop := word ≠ [] ∧ ∀ c ∈ word, ¬ Blank c ∧ c ≠ '"' ∧ c ≠ '\\'

instance (word : List Char) : Decidable (Word word) :=
  @instDecidableAnd _ _ _ (List.decidableBAll _ word)

def Ended (rest : List Char) : Prop := ∀ c ∈ rest.head?, c = ' '

theorem ended_nil : Ended [] := by
  intro c hc
  cases hc

theorem ended_space : Ended (' ' :: rest) := by
  intro c hc
  cases hc
  rfl

def Reads (text value : List Char) : Prop :=
  ∀ rest, Ended rest → arguments (text ++ rest) = value :: arguments rest

theorem scan_ended {mode : Mode} (hmode : mode ≠ .quoted) (h : Ended rest)
    : scan mode slashes rest = (List.replicate slashes '\\', rest) := by
  cases rest with
  | nil => rw [scan]
  | cons c rest =>
    rw [h c rfl, scan, if_neg (by decide), if_neg (by decide), if_pos ⟨hmode, .inl rfl⟩]

theorem scan_unquoted (h : ∀ c ∈ word, ¬ Blank c ∧ c ≠ '"') (hrest : Ended rest)
    : scan .plain slashes (word ++ rest) = (List.replicate slashes '\\' ++ word, rest) := by
  induction word generalizing slashes with
  | nil =>
    rw [List.nil_append, List.append_nil]
    exact scan_ended (by decide) hrest
  | cons c word ih =>
    obtain ⟨hblank, hquote⟩ := h c List.mem_cons_self
    have hword := @ih
    rw [List.cons_append, scan]
    . by_cases hslash : c = '\\'
      . subst hslash
        rw [if_pos rfl, Mode.settled, hword fun d hd => h d (List.mem_cons_of_mem _ hd)]
        . rw [List.replicate_succ', List.append_assoc]
          rfl
        . intro hmode
          cases hmode
      . rw [if_neg hslash, if_neg hquote, if_neg fun hc => hblank hc.2, Mode.settled]
        . rw [hword fun d hd => h d (List.mem_cons_of_mem _ hd)]
          simp [emit]
        . intro hmode
          cases hmode

theorem reads_unquoted (hne : word ≠ []) (h : ∀ c ∈ word, ¬ Blank c ∧ c ≠ '"') : Reads word word := by
  intro rest hrest
  obtain ⟨c, cs, rfl⟩ := List.exists_cons_of_ne_nil hne
  have hscan := @scan_unquoted 0 rest (c :: cs) h hrest
  rw [List.cons_append] at hscan ⊢
  rw [arguments_cons (h c List.mem_cons_self).1, hscan]
  rfl

theorem Word.reads (h : Word word) : Reads word word :=
  reads_unquoted h.1 fun c hc => ⟨(h.2 c hc).1, (h.2 c hc).2.1⟩

@[simp]
theorem arguments_word (h : Word word) : arguments (word ++ ' ' :: rest) = word :: arguments rest := by
  rw [h.reads _ ended_space, arguments_blank (.inl rfl)]

@[simp]
theorem arguments_lastWord (h : Word word) : arguments word = [word] := by
  have hlast := h.reads [] ended_nil
  rw [List.append_nil] at hlast
  exact hlast

theorem arguments_spaced (h : ∀ arg ∈ args, token arg ≠ [] → Reads (token arg) arg)
    : arguments (args.flatMap fun arg => ' ' :: token arg) = args.filter fun arg => token arg ≠ [] := by
  induction args with
  | nil => rfl
  | cons arg args ih =>
    have hargs := ih fun a ha => h a (List.mem_cons_of_mem arg ha)
    have hended : Ended (args.flatMap fun arg => ' ' :: token arg) := by
      cases args with
      | nil => exact ended_nil
      | cons => exact ended_space
    rw [List.flatMap_cons, List.cons_append, arguments_blank (.inl rfl)]
    by_cases hempty : token arg = []
    . rw [List.filter_cons_of_neg (by simp [hempty]), hempty, List.nil_append]
      exact hargs
    . rw [List.filter_cons_of_pos (by simp [hempty]), h arg List.mem_cons_self hempty _ hended, hargs]

end Words

section Quoting

variable {slashes : Nat} {text rest value : List Char}

/--
Put a backslash before every quote and nothing else, as the substitution of `\"` for `"` does.
-/
def escape : List Char → List Char
  | [] => []
  | c :: rest => if c = '"' then '\\' :: '"' :: escape rest else c :: escape rest

def Quotable (value : List Char) : Prop := ¬ ['\\', '"'] <:+: value ++ ['"']

instance (value : List Char) : Decidable (Quotable value) := inferInstanceAs (Decidable (¬ _))

theorem Quotable.tail {c : Char} (h : Quotable (c :: value)) : Quotable value := by
  intro hpart
  exact h (hpart.trans (List.suffix_cons c _).isInfix)

theorem Quotable.head (h : Quotable ('\\' :: value)) : ∃ c rest, value = c :: rest ∧ c ≠ '"' := by
  cases value with
  | nil => exact absurd (List.infix_refl _) h
  | cons c rest =>
    refine ⟨c, rest, rfl, ?_⟩
    rintro rfl
    apply h
    exact List.IsPrefix.isInfix ⟨rest ++ ['"'], rfl⟩

theorem quotable_cons {c : Char} (h : Quotable value)
    (hhead : c = '\\' → ∃ d rest, value = d :: rest ∧ d ≠ '"') : Quotable (c :: value) := by
  intro hpart
  rw [List.cons_append, List.infix_cons_iff] at hpart
  cases hpart with
  | inl hstart =>
    rw [List.cons_prefix_cons] at hstart
    obtain ⟨d, rest, rfl, hd⟩ := hhead hstart.1.symm
    exact hd (List.cons_prefix_cons.mp hstart.2).1.symm
  | inr hpart => exact h hpart

theorem quotable_append (h : Quotable value) (hrest : Quotable rest) : Quotable (value ++ rest) := by
  induction value with
  | nil => exact hrest
  | cons c value ih =>
    apply quotable_cons (ih h.tail)
    rintro rfl
    obtain ⟨d, tail, rfl, hd⟩ := h.head
    exact ⟨d, tail ++ rest, rfl, hd⟩

theorem quotable_of_unquoted (h : '"' ∉ value) (hlast : value.getLast? ≠ some '\\') : Quotable value := by
  induction value with
  | nil => decide
  | cons c value ih =>
    cases value with
    | nil =>
      apply quotable_cons (by decide)
      rintro rfl
      exact absurd rfl hlast
    | cons d rest =>
      rw [List.getLast?_cons_cons] at hlast
      apply quotable_cons (ih (fun hmem => h (List.mem_cons_of_mem c hmem)) hlast)
      intro _
      refine ⟨d, rest, rfl, ?_⟩
      rintro rfl
      apply h
      simp

@[simp]
theorem escape_append : escape (text ++ rest) = escape text ++ escape rest := by
  induction text with
  | nil => rfl
  | cons c text ih =>
    rw [List.cons_append, escape, escape, ih]
    split
    . rfl
    . rfl

theorem escape_unquoted (h : '"' ∉ text) : escape text = text := by
  induction text with
  | nil => rfl
  | cons c text ih =>
    have hc : c ≠ '"' := by
      rintro rfl
      exact h List.mem_cons_self
    rw [escape, if_neg hc, ih (fun hmem => h (List.mem_cons_of_mem c hmem))]

theorem scan_escape (h : Quotable value) (hslashes : slashes ≠ 0 → ∃ c rest, value = c :: rest ∧ c ≠ '"')
    : scan .quoted slashes (escape value ++ '"' :: text)
        = emit (List.replicate slashes '\\' ++ value) (scan .closing 0 text) := by
  induction value generalizing slashes with
  | nil =>
    have hzero : slashes = 0 := by
      by_contra hne
      obtain ⟨c, rest, heq, _⟩ := hslashes hne
      cases heq
    subst hzero
    rw [escape, List.nil_append, scan]
    rfl
  | cons c value ih =>
    unfold escape
    by_cases hquote : c = '"'
    . have hzero : slashes = 0 := by
        by_contra hne
        obtain ⟨d, rest, heq, hd⟩ := hslashes hne
        injection heq with hcd
        exact hd (hcd ▸ hquote)
      subst hzero hquote
      have hrest := @ih 0 h.tail (by simp)
      rw [if_pos rfl, List.cons_append, List.cons_append, scan, if_pos rfl, scan]
      simp [Mode.settled, hrest, emit]
    . rw [if_neg hquote, List.cons_append, scan]
      by_cases hslash : c = '\\'
      . subst hslash
        rw [if_pos rfl]
        have hrest := @ih (slashes + 1) h.tail (fun _ => h.head)
        rw [Mode.settled, hrest, List.replicate_succ', List.append_assoc]
        . rfl
        . intro hmode
          cases hmode
      . have hrest := @ih 0 h.tail (by simp)
        rw [if_neg hslash, if_neg hquote, if_neg (by simp), Mode.settled, hrest]
        . simp [emit]
        . intro hmode
          cases hmode

theorem reads_of_scan {body : List Char}
    (h : ∀ text, scan .quoted 0 (body ++ '"' :: text) = emit value (scan .closing 0 text))
    : Reads ('"' :: (body ++ ['"'])) value := by
  intro rest hrest
  have hscan : scan .plain 0 ('"' :: (body ++ '"' :: rest)) = (value, rest) := by
    rw [scan, if_neg (by decide), if_pos rfl, if_neg (by decide), if_neg (by decide), Mode.toggled]
    . rw [h, scan_ended (by decide) hrest]
      simp [emit]
    . intro hmode
      cases hmode
  rw [List.cons_append, List.append_assoc, List.singleton_append, arguments_cons (by decide), hscan]

theorem reads_escape (h : Quotable value) : Reads ('"' :: (escape value ++ ['"'])) value :=
  reads_of_scan fun text => scan_escape h (by simp)

@[simp]
theorem arguments_quoted (h : Quotable value)
    : arguments ('"' :: escape value ++ '"' :: ' ' :: rest) = value :: arguments rest := by
  have hread := reads_escape h (' ' :: rest) ended_space
  rw [arguments_blank (.inl rfl), List.cons_append, List.append_assoc] at hread
  exact hread

/--
The inside of a quoted argument that may be any text. `slashes` backslashes are pending: before a quote,
which gets one more, and at the end they are doubled.
-/
def encode : Nat → List Char → List Char
  | slashes, [] => List.replicate (slashes * 2) '\\'
  | slashes, c :: rest =>
    if c = '\\' then encode (slashes + 1) rest
    else List.replicate (if c = '"' then slashes * 2 + 1 else slashes) '\\' ++ c :: encode 0 rest

theorem scan_slashes (n : Nat)
    : scan .quoted slashes (List.replicate n '\\' ++ text) = scan .quoted (slashes + n) text := by
  induction n generalizing slashes with
  | zero => rfl
  | succ n ih =>
    rw [List.replicate_succ, List.cons_append, scan, if_pos rfl, Mode.settled, ih, Nat.add_right_comm]
    . rfl
    . intro hmode
      cases hmode

/--
The induction is on the text, with the pending backslashes in the invariant.
-/
theorem scan_encode (slashes : Nat) (value text : List Char)
    : scan .quoted 0 (encode slashes value ++ '"' :: text)
        = emit (List.replicate slashes '\\' ++ value) (scan .closing 0 text) := by
  induction value generalizing slashes with
  | nil =>
    rw [encode, scan_slashes, Nat.zero_add, scan, if_neg (by decide), if_pos rfl, if_neg (by omega),
      if_neg (by decide), Mode.toggled, Nat.mul_div_cancel _ (by decide), List.append_nil]
  | cons c value ih =>
    rw [encode]
    by_cases hslash : c = '\\'
    . rw [if_pos hslash, ih, hslash, List.replicate_succ', List.append_assoc]
      rfl
    . rw [if_neg hslash, List.append_assoc, scan_slashes, Nat.zero_add, List.cons_append, scan,
        if_neg hslash]
      by_cases hquote : c = '"'
      . have hhalf : (slashes * 2 + 1) / 2 = slashes := by omega
        rw [if_pos hquote, if_pos hquote, if_pos (by omega), ih, hhalf, hquote]
        simp [emit]
      . rw [if_neg hquote, if_neg hquote, if_neg (by simp), Mode.settled, ih]
        . simp [emit]
        . intro hmode
          cases hmode

theorem reads_encode (value : List Char) : Reads ('"' :: (encode 0 value ++ ['"'])) value :=
  reads_of_scan (scan_encode 0 value)

theorem encode_unquoted (h : '"' ∉ value) (hlast : value.getLast? ≠ some '\\')
    (hslashes : value = [] → slashes = 0) : encode slashes value = List.replicate slashes '\\' ++ value := by
  induction value generalizing slashes with
  | nil =>
    rw [hslashes rfl]
    rfl
  | cons c value ih =>
    have hquote : c ≠ '"' := by
      rintro rfl
      exact h List.mem_cons_self
    have htail : '"' ∉ value := fun hmem => h (List.mem_cons_of_mem c hmem)
    rw [encode]
    cases value with
    | nil =>
      have hslash : c ≠ '\\' := by
        rintro rfl
        exact hlast rfl
      rw [if_neg hslash, if_neg hquote]
      rfl
    | cons d rest =>
      rw [List.getLast?_cons_cons] at hlast
      split
      . next hslash =>
        rw [ih htail hlast (by simp), hslash, List.replicate_succ', List.append_assoc]
        rfl
      . rw [ih htail hlast (by simp)]
        rfl

theorem not_mem_encode {c : Char} (hslash : c ≠ '\\') (h : c ∉ value) : c ∉ encode slashes value := by
  induction value generalizing slashes with
  | nil =>
    intro hmem
    exact hslash (List.eq_of_mem_replicate hmem)
  | cons d value ih =>
    rw [List.mem_cons, not_or] at h
    rw [encode]
    split
    . exact ih h.2
    . rw [List.mem_append, List.mem_cons]
      rintro (hmem | heq | hmem)
      . exact hslash (List.eq_of_mem_replicate hmem)
      . exact h.1 heq
      . exact ih h.2 hmem

end Quoting

section Programs

variable {name rest : List Char}

/--
The name of the program at the start of a command line, as the C runtime reads it: quotes keep blanks in
the name and are left out.
-/
def program : Bool → List Char → List Char × List Char
  | _, [] => ([], [])
  | quoted, c :: rest =>
    if c = '"' then program (!quoted) rest
    else if quoted = false ∧ Blank c then ([], c :: rest)
    else emit [c] (program quoted rest)

def mainArguments (line : List Char) : List (List Char) :=
  (program false line).1 :: arguments (program false line).2

/--
The name of the program as `CommandLineToArgvW` reads it: a name in quotes ends at the next quote, and
another one before a blank or a control character.
-/
def shellProgram : List Char → List Char × List Char
  | '"' :: rest => (rest.takeWhile (· != '"'), (rest.dropWhile (· != '"')).tail)
  | text => (text.takeWhile (' ' < ·), text.dropWhile (' ' < ·))

def shellArguments (line : List Char) : List (List Char) :=
  (shellProgram line).1 :: arguments (shellProgram line).2

theorem program_plain (h : ∀ c ∈ name, ¬ Blank c ∧ c ≠ '"') (hrest : Ended rest)
    : program false (name ++ rest) = (name, rest) := by
  induction name with
  | nil =>
    cases rest with
    | nil => rfl
    | cons c rest =>
      rw [List.nil_append, hrest c rfl, program, if_neg (by decide), if_pos ⟨rfl, .inl rfl⟩]
  | cons c name ih =>
    obtain ⟨hblank, hquote⟩ := h c List.mem_cons_self
    rw [List.cons_append, program, if_neg hquote, if_neg fun hc => hblank hc.2,
      ih fun d hd => h d (List.mem_cons_of_mem c hd)]
    rfl

theorem program_inside (h : '"' ∉ name)
    : program true (name ++ '"' :: rest) = emit name (program false rest) := by
  induction name with
  | nil => rfl
  | cons c name ih =>
    rw [List.mem_cons, not_or] at h
    rw [List.cons_append, program, if_neg (Ne.symm h.1), if_neg (by simp), ih h.2]
    rfl

theorem program_quoted (h : '"' ∉ name) (hrest : Ended rest)
    : program false ('"' :: (name ++ '"' :: rest)) = (name, rest) := by
  have hend := @program_plain [] rest (by simp) hrest
  rw [List.nil_append] at hend
  rw [program, if_pos rfl, Bool.not_false, program_inside h, hend]
  simp [emit]

theorem shellProgram_quoted (h : '"' ∉ name)
    : shellProgram ('"' :: (name ++ '"' :: rest)) = (name, rest) := by
  have hname : ∀ c ∈ name, (c != '"') = true := by
    intro c hc
    rw [bne_iff_ne]
    rintro rfl
    exact h hc
  simp [shellProgram, List.takeWhile_append_of_pos hname, List.dropWhile_append_of_pos hname]

end Programs

end CommandLine
